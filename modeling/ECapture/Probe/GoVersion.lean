import ECapture.Library.Reader
import ECapture.Library.Scanf
import Mathlib.Data.List.TakeWhile

/-!
# The Go version of a traced program

The version string of a binary is read twice: `parseGoVersion` of `pkg/proc/proc.go`
(`strings.SplitN` and `strconv.Atoi`) selects the calling convention in `parserGoElf`, and
`isGoVersionSupported` and `isRegisterABI` of `internal/probe/gotls/config.go` scan it with
`%d.%d`. A third function, `magicNumber`, compares it as a string.
-/

namespace ECapture.Probe
open Library

/-- `strings.TrimPrefix`. -/
def trimPrefix (front s : Bytes) : Bytes := if front.isPrefixOf s then s.drop front.length else s

/-- `strings.SplitN` with a separator of one byte: the last piece is not cut further. -/
def splitN (sep : UInt8) : Nat → Bytes → List Bytes
  | 0, _ => []
  | 1, s => [s]
  | n + 2, s =>
    if sep ∈ s then s.takeWhile (· ≠ sep) :: splitN sep (n + 1) ((s.dropWhile (· ≠ sep)).drop 1)
    else [s]

/-! ## `pkg/proc` -/

structure GoVersion where
  major : Int
  minor : Int
  deriving DecidableEq, Repr

def GoVersion.after (v : GoVersion) (major minor : Int) : Bool :=
  if v.major > major then true
  else if v.major = major ∧ v.minor > minor then true
  else false

def cmdCompile : Bytes := str "Go cmd/compile"

/-- An error is `none`. -/
def parseGoVersion (r : Bytes) : Option GoVersion :=
  let ver := trimPrefix cmdCompile r
  if (str "go").isPrefixOf ver then do
    let v := splitN 46 3 (ver.drop 2)
    let major ← atoi? (v.getD 0 [])
    let minor ← if 2 ≤ v.length then atoi? (v.getD 1 []) else some 0
    some { major, minor }
  else none

/-- The part of `parserGoElf` that sets `IsRegisterABI`; it fails with the parser. -/
def selectRegisterABI (goVersion : Bytes) : Option Bool :=
  (parseGoVersion goVersion).map fun ver => ver.after 1 17

/-! ## `internal/probe/gotls` -/

/-- `fmt.Sscanf(s, "%d.%d", &major, &minor)`: what follows the second number is not read. -/
def scanMajorMinor (s : Bytes) : Option (Int × Int) := do
  let (major, s) ← scanInt s
  match s with
  | 46 :: s => (scanInt s).map fun (minor, _) => (major, minor)
  | _ => none

/-- The numbers that a version is compared by. -/
def versionNumbers (version : Bytes) : Option (Int × Int) :=
  scanMajorMinor (trimPrefix (str "go") version)

/-- The common body of the next two functions. -/
def isGo117OrLater (version : Bytes) : Bool :=
  match versionNumbers version with
  | none => false
  | some (major, minor) =>
    if major > 1 then true
    else if major = 1 ∧ minor ≥ 17 then true
    else false

def isGoVersionSupported (version : Bytes) : Bool := isGo117OrLater version

def isRegisterABI (version : Bytes) : Bool := isGo117OrLater version

/-! ## When both readers accept -/

/-- A version without decoration: `go`, two numbers with a dot between them, and then nothing or
another dot. -/
def Undecorated (v : Bytes) (major minor : Int) : Prop :=
  ∃ a b rest, v = str "go" ++ (a ++ 46 :: (b ++ rest)) ∧ Numeral a major ∧ Numeral b minor ∧
    (rest = [] ∨ rest.head? = some 46)

theorem trimPrefix_append (front s : Bytes) : trimPrefix front (front ++ s) = s := by
  simp [trimPrefix]

theorem not_numeric_dot : ¬ numeric 46 := by decide

theorem ends_of_dot {rest : Bytes} (h : rest = [] ∨ rest.head? = some 46) : Ends rest := by
  intro b hb
  rcases h with rfl | h
  · simp at hb
  · obtain rfl : 46 = b := by simpa [h] using hb
    decide

theorem takeWhile_of_dot_not_mem {a : Bytes} (h : (46 : UInt8) ∉ a) :
    a.takeWhile (· ≠ 46) = a := by
  rw [List.takeWhile_eq_self_iff]
  intro b mem
  rw [decide_eq_true_eq]
  rintro rfl
  exact h mem

/-- Cut at the first dot. -/
theorem cut_at_dot {a s : Bytes} (h : (46 : UInt8) ∉ a) :
    (a ++ 46 :: s).takeWhile (· ≠ 46) = a ∧ ((a ++ 46 :: s).dropWhile (· ≠ 46)).drop 1 = s := by
  have all : ∀ b ∈ a, decide (b ≠ 46) = true := fun b mem => by
    rw [decide_eq_true_eq]
    rintro rfl
    exact h mem
  rw [List.takeWhile_append_of_pos all, List.dropWhile_append_of_pos all]
  simp

/-- The second piece of a split into three is what stands before the next dot. -/
theorem splitN_two (s : Bytes) :
    ∃ more, splitN 46 2 s = s.takeWhile (· ≠ 46) :: more := by
  by_cases dot : (46 : UInt8) ∈ s
  · exact ⟨_, by simp only [splitN, if_pos dot]; rfl⟩
  · refine ⟨[], ?_⟩
    simp only [splitN, if_neg dot]
    rw [takeWhile_of_dot_not_mem dot]

/-- What `parseGoVersion` does with a text that has a dot. -/
theorem parseGoVersion_go {a s : Bytes} (h : (46 : UInt8) ∉ a) :
    parseGoVersion (str "go" ++ (a ++ 46 :: s)) = (do
      let major ← atoi? a
      let minor ← atoi? (s.takeWhile (· ≠ 46))
      some { major, minor }) := by
  have trim : trimPrefix cmdCompile (str "go" ++ (a ++ 46 :: s)) = str "go" ++ (a ++ 46 :: s) := by
    simp [trimPrefix, cmdCompile, str]
  have pieces : ∃ more, splitN 46 3 (a ++ 46 :: s) = a :: s.takeWhile (· ≠ 46) :: more := by
    obtain ⟨more, eq⟩ := splitN_two s
    refine ⟨more, ?_⟩
    rw [splitN, if_pos (by simp), (cut_at_dot h).1, (cut_at_dot h).2, eq]
  obtain ⟨more, eq⟩ := pieces
  have go : (str "go").isPrefixOf (str "go" ++ (a ++ 46 :: s)) = true := by simp
  have back : (str "go" ++ (a ++ 46 :: s)).drop 2 = a ++ 46 :: s := rfl
  simp only [parseGoVersion, trim, go, if_true, back, eq]
  simp

theorem dot_not_mem_of_numeral {s : Bytes} {i : Int} (h : Numeral s i) : (46 : UInt8) ∉ s :=
  fun mem => not_numeric_dot (h.numeric 46 mem)

/-- Nothing stands between the second number and the next dot. -/
theorem takeWhile_numeral {b rest : Bytes} {i : Int} (hb : Numeral b i)
    (hr : rest = [] ∨ rest.head? = some 46) : (b ++ rest).takeWhile (· ≠ 46) = b := by
  cases rest with
  | nil => rw [List.append_nil, takeWhile_of_dot_not_mem (dot_not_mem_of_numeral hb)]
  | cons c rest =>
    obtain rfl : c = 46 := by simpa using hr
    exact (cut_at_dot (dot_not_mem_of_numeral hb)).1

theorem parseGoVersion_of_undecorated {v : Bytes} {major minor : Int}
    (h : Undecorated v major minor) : parseGoVersion v = some { major, minor } := by
  obtain ⟨a, b, rest, rfl, ha, hb, hr⟩ := h
  rw [parseGoVersion_go (dot_not_mem_of_numeral ha), takeWhile_numeral hb hr,
    atoi?_eq_some_iff.mpr ha, atoi?_eq_some_iff.mpr hb]
  rfl

theorem versionNumbers_of_undecorated {v : Bytes} {major minor : Int}
    (h : Undecorated v major minor) : versionNumbers v = some (major, minor) := by
  obtain ⟨a, b, rest, rfl, ha, hb, hr⟩ := h
  have first : scanInt (a ++ 46 :: (b ++ rest)) = some (major, 46 :: (b ++ rest)) :=
    scanInt_numeral ha (ends_of_dot (.inr rfl))
  have second : scanInt (b ++ rest) = some (minor, rest) := scanInt_numeral hb (ends_of_dot hr)
  rw [versionNumbers, trimPrefix_append, scanMajorMinor, first]
  simp [second]

/-- What the scan has read, as text. -/
theorem versionNumbers_spec {v : Bytes} {major minor : Int}
    (h : versionNumbers v = some (major, minor)) :
    ∃ blanks a blanks' b rest,
      trimPrefix (str "go") v = blanks ++ a ++ 46 :: (blanks' ++ b ++ rest) ∧
        (∀ c ∈ blanks, Unprinted c) ∧ (∀ c ∈ blanks', Unprinted c) ∧
        Numeral a major ∧ Numeral b minor ∧ Ends rest := by
  simp only [versionNumbers, scanMajorMinor, Option.bind_eq_bind, Option.bind_eq_some_iff] at h
  obtain ⟨⟨i, s⟩, first, h⟩ := h
  split at h
  case h_2 => simp at h
  case h_1 t eq =>
    obtain rfl : s = 46 :: t := eq
    simp only [Option.map_eq_some_iff, Prod.mk.injEq] at h
    obtain ⟨⟨j, rest⟩, second, rfl, rfl⟩ := h
    obtain ⟨blanks, a, eqa, no, ha, -⟩ := scanInt_spec first
    obtain ⟨blanks', b, eqb, no', hb, stop⟩ := scanInt_spec second
    exact ⟨blanks, a, blanks', b, rest, by rw [eqa, eqb], no, no', ha, hb, stop⟩

/-- Blanks are no part of what `Atoi` accepts. -/
theorem blanks_eq_nil {blanks s : Bytes} {i : Int} (no : ∀ c ∈ blanks, Unprinted c)
    (h : Numeral (blanks ++ s) i) : blanks = [] := by
  cases blanks with
  | nil => rfl
  | cons c blanks =>
    exact absurd (h.numeric c (by simp)) (no c List.mem_cons_self).not_numeric

theorem dot_not_mem_of_unprinted {blanks : Bytes} (no : ∀ c ∈ blanks, Unprinted c) :
    (46 : UInt8) ∉ blanks := fun mem => by
  have := no 46 mem
  simp [Unprinted] at this

theorem dot_not_mem_append {blanks a : Bytes} {i : Int} (no : ∀ c ∈ blanks, Unprinted c)
    (ha : Numeral a i) : (46 : UInt8) ∉ blanks ++ a := by
  rw [List.mem_append, not_or]
  exact ⟨dot_not_mem_of_unprinted no, dot_not_mem_of_numeral ha⟩

/-- `Atoi` accepts the second piece only when it is the second number. -/
theorem rest_of_second_piece {blanks b rest : Bytes} {i j : Int}
    (no : ∀ c ∈ blanks, Unprinted c) (hb : Numeral b i) (stop : Ends rest)
    (h : Numeral ((blanks ++ b ++ rest).takeWhile (· ≠ 46)) j) :
    blanks = [] ∧ (rest = [] ∨ rest.head? = some 46) := by
  have all : ∀ c ∈ blanks ++ b, decide (c ≠ 46) = true := fun c mem => by
    rw [decide_eq_true_eq]
    rintro rfl
    exact dot_not_mem_append no hb mem
  rw [List.takeWhile_append_of_pos all, List.append_assoc] at h
  obtain rfl := blanks_eq_nil no h
  refine ⟨rfl, ?_⟩
  have stop' : Ends (rest.takeWhile (· ≠ 46)) := by
    intro c hc
    apply stop
    cases rest with
    | nil => simp at hc
    | cons d rest =>
      by_cases dot : d = 46
      · simp [dot] at hc
      · simpa [dot] using hc
  have nothing := hb.append_left stop' h
  cases rest with
  | nil => exact .inl rfl
  | cons d rest =>
    refine .inr ?_
    by_contra other
    have dot : d ≠ 46 := by simpa using other
    simp [dot] at nothing

/-- A text that starts with a blank or a number is no compiler line. -/
theorem cmdCompile_not_isPrefixOf {v blanks a s : Bytes} {i : Int} (eq : v = blanks ++ a ++ s)
    (no : ∀ c ∈ blanks, Unprinted c) (ha : Numeral a i) : cmdCompile.isPrefixOf v = false := by
  have first : ∀ c, (blanks ++ a).head? = some c → c ≠ 71 := by
    rintro c hc rfl
    rcases List.mem_append.mp (List.mem_of_head? hc) with mem | mem
    · have := no 71 mem
      simp [Unprinted] at this
    · have := ha.numeric 71 mem
      simp [numeric, decimal, sign] at this
  obtain ⟨c, cs, front⟩ := List.exists_cons_of_ne_nil (l := blanks ++ a) (by simp [ha.ne_nil])
  have other := first c (by simp [front])
  rw [eq, front, Bool.eq_false_iff]
  intro pre
  obtain ⟨t, ht⟩ := List.isPrefixOf_iff_prefix.mp pre
  exact other (List.cons.inj ht).1.symm

/-- A version that both readers accept has no decoration. -/
theorem undecorated_of_both {v : Bytes} {g : GoVersion} {major minor : Int}
    (parsed : parseGoVersion v = some g) (scanned : versionNumbers v = some (major, minor)) :
    Undecorated v major minor := by
  obtain ⟨blanks, a, blanks', b, rest, eq, no, no', ha, hb, stop⟩ := versionNumbers_spec scanned
  by_cases go : (str "go").isPrefixOf v
  case pos =>
    obtain ⟨w, rfl⟩ := List.isPrefixOf_iff_prefix.mp go
    rw [trimPrefix_append] at eq
    subst eq
    rw [parseGoVersion_go (dot_not_mem_append no ha)] at parsed
    simp only [Option.bind_eq_bind, Option.bind_eq_some_iff] at parsed
    obtain ⟨i, first, j, second, -⟩ := parsed
    obtain rfl := blanks_eq_nil no (atoi?_eq_some_iff.mp first)
    obtain ⟨rfl, hr⟩ := rest_of_second_piece no' hb stop (atoi?_eq_some_iff.mp second)
    exact ⟨a, b, rest, rfl, ha, hb, hr⟩
  case neg =>
    have whole : trimPrefix (str "go") v = v := by rw [trimPrefix, if_neg go]
    rw [whole] at eq
    have trim : trimPrefix cmdCompile v = v := by
      rw [trimPrefix, cmdCompile_not_isPrefixOf eq no ha]
      rfl
    rw [parseGoVersion, trim] at parsed
    simp [go] at parsed

theorem isGo117OrLater_iff {v : Bytes} :
    isGo117OrLater v = true ↔
      ∃ major minor, versionNumbers v = some (major, minor) ∧
        (1 < major ∨ major = 1 ∧ 17 ≤ minor) := by
  unfold isGo117OrLater
  split
  case h_1 none => simp [none]
  case h_2 major minor read =>
    simp only [read, Option.some.injEq, Prod.mk.injEq]
    grind

/-- On a supported version the two readers agree, and the calling convention follows the version,
exactly when the version has no decoration and is not 1.17 itself. -/
theorem versions_agree_iff {v : Bytes} (supported : isGoVersionSupported v = true) :
    (∃ g, parseGoVersion v = some g ∧ versionNumbers v = some (g.major, g.minor) ∧
        selectRegisterABI v = some (isRegisterABI v)) ↔
      ∃ major minor, Undecorated v major minor ∧ (major, minor) ≠ (1, 17) := by
  obtain ⟨major, minor, read, late⟩ := isGo117OrLater_iff.mp supported
  have registers : isRegisterABI v = true := supported
  constructor
  · rintro ⟨g, parsed, same, abi⟩
    obtain ⟨rfl, rfl⟩ : g.major = major ∧ g.minor = minor := by simpa [read, eq_comm] using same
    refine ⟨g.major, g.minor, undecorated_of_both parsed read, fun first => ?_⟩
    rw [selectRegisterABI, parsed, registers, Option.map_some, GoVersion.after] at abi
    grind
  · rintro ⟨major', minor', plain, other⟩
    have parsed := parseGoVersion_of_undecorated plain
    have scanned := versionNumbers_of_undecorated plain
    obtain ⟨rfl, rfl⟩ : major = major' ∧ minor = minor' := by simpa [read] using scanned
    refine ⟨_, parsed, scanned, ?_⟩
    rw [selectRegisterABI, parsed, registers, Option.map_some, GoVersion.after]
    grind

theorem versions_agree_go1183 :
    isGoVersionSupported (str "go1.18.3") = true ∧
      ∃ g, parseGoVersion (str "go1.18.3") = some g ∧
        versionNumbers (str "go1.18.3") = some (g.major, g.minor) ∧
        selectRegisterABI (str "go1.18.3") = some (isRegisterABI (str "go1.18.3")) := by
  have supported : isGoVersionSupported (str "go1.18.3") = true := by decide +kernel
  have plain : Undecorated (str "go1.18.3") 1 18 :=
    ⟨str "1", str "18", str ".3", by decide, atoi?_eq_some_iff.mp (by decide),
      atoi?_eq_some_iff.mp (by decide), .inr (by decide)⟩
  exact ⟨supported, (versions_agree_iff supported).mpr ⟨1, 18, plain, by decide⟩⟩

/-- A release candidate is supported and not parsed; 1.17 is supported and read with the wrong
calling convention. -/
theorem versions_disagree :
    (isGoVersionSupported (str "go1.18rc1") = true ∧ parseGoVersion (str "go1.18rc1") = none) ∧
      isGoVersionSupported (str "go1.17.5") = true ∧ isRegisterABI (str "go1.17.5") = true ∧
      selectRegisterABI (str "go1.17.5") = some false := by
  decide +kernel

/-! ## The magic number of the line table -/

def go12magic : Nat := 0xfffffffb
def go116magic : Nat := 0xfffffffa
def go118magic : Nat := 0xfffffff0
def go120magic : Nat := 0xfffffff1

/-- `strings.Compare(v, bound) >= 0` is `¬ v < bound`. -/
def magicNumber (goVersion : Bytes) : Bytes :=
  let magic :=
    if ¬ goVersion < str "go1.20" then go120magic
    else if ¬ goVersion < str "go1.18" then go118magic
    else if ¬ goVersion < str "go1.16" then go116magic
    else go12magic
  leBytes 4 magic

/-- The magic number that the linker of Go 1.`n` writes. -/
def linkerMagic (n : Nat) : Bytes :=
  leBytes 4 (if 20 ≤ n then go120magic else if 18 ≤ n then go118magic
    else if 16 ≤ n then go116magic else go12magic)

/-- The next byte, if there is one, is below `c`. -/
def HeadLt (l : Bytes) (c : UInt8) : Prop := ∀ b ∈ l.head?, b < c

instance (l : Bytes) (c : UInt8) : Decidable (HeadLt l c) :=
  match l with
  | [] => isTrue (by simp [HeadLt])
  | b :: l => decidable_of_iff (b < c) (by simp [HeadLt])

theorem headLt_cons {b c : UInt8} {l : Bytes} : HeadLt (b :: l) c ↔ b < c := by
  simp [HeadLt]

/-- The comparisons see the first two bytes behind the dot. -/
theorem go1_lt_iff {d : UInt8} {l : Bytes} {c e : UInt8} {bound : Bytes}
    (eq : bound = str "go1." ++ [c, e]) :
    str "go1." ++ d :: l < bound ↔ d < c ∨ d = c ∧ HeadLt l e := by
  subst eq
  cases l with
  | nil => simp [str, List.cons_lt_cons_iff, HeadLt]
  | cons b l => simp [str, List.cons_lt_cons_iff, HeadLt]

/-- The version that `magicNumber` takes `go1.` and these bytes for. -/
def comparedAs (d : UInt8) (l : Bytes) : Nat :=
  if 50 < d ∨ d = 50 ∧ ¬ HeadLt l 48 then 20
  else if d = 50 ∨ d = 49 ∧ ¬ HeadLt l 56 then 18
  else if d = 49 ∧ ¬ HeadLt l 54 then 16
  else 0

theorem dec_of_lt {n : Nat} (h : n < 10) : dec n = [UInt8.ofNat (48 + n)] := by
  have digits : ∀ n < 10, dec n = [UInt8.ofNat (48 + n)] := by decide
  exact digits n h

theorem dec_of_lt_hundred {n : Nat} (big : 10 ≤ n) (small : n < 100) :
    dec n = [UInt8.ofNat (48 + n / 10), UInt8.ofNat (48 + n % 10)] := by
  have digits : ∀ n < 100, 10 ≤ n →
      dec n = [UInt8.ofNat (48 + n / 10), UInt8.ofNat (48 + n % 10)] := by decide +kernel
  exact digits n small big

theorem decimal_of_mem_dec {b : UInt8} {n : Nat} (h : b ∈ dec n) : decimal b := by
  have := mem_dec h
  simp only [decimal, decide_eq_true_eq, UInt8.le_iff_toNat_le]
  exact this

/-- A number of three or more digits: its first two and the others. -/
theorem dec_of_three {n : Nat} (h : 100 ≤ n) :
    ∃ d e l, dec n = d :: e :: l ∧ 49 ≤ d ∧ decimal e := by
  have long : ¬ (dec n).length ≤ 2 := by
    rw [length_dec_le_iff (by decide)]
    omega
  match eq : dec n with
  | [] => simp [eq] at long
  | [_] => simp [eq] at long
  | d :: e :: l =>
    have digit : decimal d := decimal_of_mem_dec (n := n) (by simp [eq])
    have not_zero : d ≠ 48 := by
      rintro rfl
      have zero := not_zero_prefix_dec (p := n) (by omega)
      rw [eq] at zero
      exact zero ⟨e :: l, rfl⟩
    refine ⟨d, e, l, rfl, ?_, decimal_of_mem_dec (n := n) (by simp [eq])⟩
    simp only [decimal, decide_eq_true_eq] at digit
    grind

theorem linkerMagic_inj {m n : Nat} :
    linkerMagic m = linkerMagic n ↔
      ((20 ≤ m ↔ 20 ≤ n) ∧ (18 ≤ m ↔ 18 ≤ n) ∧ (16 ≤ m ↔ 16 ≤ n)) := by
  rw [linkerMagic, linkerMagic, leBytes_inj (by grind [go120magic, go118magic, go116magic,
    go12magic]) (by grind [go120magic, go118magic, go116magic, go12magic])]
  grind [go120magic, go118magic, go116magic, go12magic]

theorem magicNumber_go1 {d : UInt8} {l : Bytes} (digit : 49 ≤ d) :
    magicNumber (str "go1." ++ d :: l) = linkerMagic (comparedAs d l) := by
  have h20 := go1_lt_iff (d := d) (l := l) (c := 50) (e := 48) (rfl : str "go1.20" = _)
  have h18 := go1_lt_iff (d := d) (l := l) (c := 49) (e := 56) (rfl : str "go1.18" = _)
  have h16 := go1_lt_iff (d := d) (l := l) (c := 49) (e := 54) (rfl : str "go1.16" = _)
  simp only [magicNumber, h20, h18, h16, linkerMagic, comparedAs]
  congr 1
  grind

/-- Not a digit and below a digit's bound means below all digits. -/
theorem headLt_of_ends {suffix : Bytes} (stop : Ends suffix) {c : UInt8} (low : 48 ≤ c)
    (high : c ≤ 57) : HeadLt suffix c ↔ HeadLt suffix 48 := by
  constructor
  · intro h b hb
    have digit := stop b hb
    have := h b hb
    simp only [decimal, decide_eq_true_eq] at digit
    grind
  · intro h b hb
    have := h b hb
    grind

theorem ofNat_digit_lt_iff {k m : Nat} (hk : k < 10) (hm : m < 10) :
    UInt8.ofNat (48 + k) < UInt8.ofNat (48 + m) ↔ k < m := by
  rw [UInt8.lt_iff_toNat_lt, UInt8.toNat_ofNat', UInt8.toNat_ofNat']
  omega

theorem ofNat_digit_inj {k m : Nat} (hk : k < 10) (hm : m < 10) :
    UInt8.ofNat (48 + k) = UInt8.ofNat (48 + m) ↔ k = m := by
  rw [← UInt8.toNat_inj, UInt8.toNat_ofNat', UInt8.toNat_ofNat']
  omega

theorem digit_ge {k : Nat} (pos : 1 ≤ k) (h : k < 10) : 49 ≤ UInt8.ofNat (48 + k) := by
  rw [UInt8.le_iff_toNat_le, UInt8.toNat_ofNat', Nat.mod_eq_of_lt (by omega)]
  exact Nat.add_le_add_left pos 48

theorem comparedAs_digit {k : Nat} (h : k < 10) (l : Bytes) :
    comparedAs (UInt8.ofNat (48 + k)) l =
      if 2 < k ∨ k = 2 ∧ ¬ HeadLt l 48 then 20
      else if k = 2 ∨ k = 1 ∧ ¬ HeadLt l 56 then 18
      else if k = 1 ∧ ¬ HeadLt l 54 then 16
      else 0 := by
  have above : (50 : UInt8) < UInt8.ofNat (48 + k) ↔ 2 < k :=
    ofNat_digit_lt_iff (k := 2) (by decide) h
  have two : UInt8.ofNat (48 + k) = 50 ↔ k = 2 := ofNat_digit_inj (m := 2) h (by decide)
  have one : UInt8.ofNat (48 + k) = 49 ↔ k = 1 := ofNat_digit_inj (m := 1) h (by decide)
  simp only [comparedAs, above, two, one]

theorem magicNumber_one_digit {n : Nat} {suffix : Bytes} (pos : 1 ≤ n) (small : n < 10)
    (stop : Ends suffix) :
    magicNumber (str "go1." ++ (dec n ++ suffix)) = linkerMagic n ↔ n = 1 ∧ HeadLt suffix 48 := by
  have at8 := headLt_of_ends stop (c := 56) (by decide) (by decide)
  have at6 := headLt_of_ends stop (c := 54) (by decide) (by decide)
  rw [dec_of_lt small, List.singleton_append, magicNumber_go1 (digit_ge pos small),
    linkerMagic_inj, comparedAs_digit small]
  grind

theorem magicNumber_two_digits {n : Nat} (big : 10 ≤ n) (small : n < 100) (suffix : Bytes) :
    magicNumber (str "go1." ++ (dec n ++ suffix)) = linkerMagic n := by
  have last : n % 10 < 10 := Nat.mod_lt n (by decide)
  have below : ∀ m < 10, UInt8.ofNat (48 + n % 10) < UInt8.ofNat (48 + m) ↔ n % 10 < m :=
    fun m hm => ofNat_digit_lt_iff last hm
  have below0 : UInt8.ofNat (48 + n % 10) < 48 ↔ n % 10 < 0 := below 0 (by decide)
  have below6 : UInt8.ofNat (48 + n % 10) < 54 ↔ n % 10 < 6 := below 6 (by decide)
  have below8 : UInt8.ofNat (48 + n % 10) < 56 ↔ n % 10 < 8 := below 8 (by decide)
  rw [dec_of_lt_hundred big small, List.cons_append, List.singleton_append,
    magicNumber_go1 (digit_ge (by omega) (by omega)), linkerMagic_inj,
    comparedAs_digit (by omega)]
  simp only [headLt_cons, below0, below6, below8]
  grind

/-- With three digits or more the first one decides. -/
theorem magicNumber_more_digits {n : Nat} {suffix : Bytes} (big : 100 ≤ n) :
    magicNumber (str "go1." ++ (dec n ++ suffix)) = linkerMagic n ↔ (dec n).head? ≠ some 49 := by
  obtain ⟨d, e, l, eq, digit, digit'⟩ := dec_of_three big
  have not_below : ¬ e < 48 := by
    simp only [decimal, decide_eq_true_eq] at digit'
    grind
  rw [eq, List.cons_append, List.cons_append, magicNumber_go1 digit, linkerMagic_inj, comparedAs,
    List.head?_cons]
  simp only [headLt_cons]
  grind

/-- `magicNumber` finds the magic number of Go 1.`n` for two-digit minor numbers, for longer ones
that do not begin with 1, and for Go 1.1 unless letters follow it. -/
theorem magicNumber_eq_linkerMagic_iff {n : Nat} {suffix : Bytes} (pos : 1 ≤ n)
    (stop : Ends suffix) :
    magicNumber (str "go1." ++ (dec n ++ suffix)) = linkerMagic n ↔
      (n = 1 ∧ HeadLt suffix 48) ∨ (10 ≤ n ∧ (100 ≤ n → (dec n).head? ≠ some 49)) := by
  rcases Nat.lt_or_ge n 10 with small | big
  · rw [magicNumber_one_digit pos small stop]
    grind
  rcases Nat.lt_or_ge n 100 with small | big'
  · have eq := magicNumber_two_digits big small suffix
    simp only [eq, true_iff]
    omega
  · rw [magicNumber_more_digits big']
    grind

theorem magicNumber_go1225 :
    magicNumber (str "go1." ++ (dec 22 ++ str ".5")) = linkerMagic 22 :=
  (magicNumber_eq_linkerMagic_iff (by decide) (ends_of_dot (.inr rfl))).mpr
    (.inr ⟨by decide, by decide⟩)

/-- Go 1.9 is taken for 1.20, and Go 1.100 for one before 1.16. -/
theorem magicNumber_go19 :
    magicNumber (str "go1." ++ (dec 9 ++ str ".7")) = leBytes 4 go120magic ∧
      magicNumber (str "go1." ++ (dec 9 ++ str ".7")) ≠ linkerMagic 9 ∧
      magicNumber (str "go1." ++ (dec 100 ++ [])) ≠ linkerMagic 100 := by
  decide

end ECapture.Probe
