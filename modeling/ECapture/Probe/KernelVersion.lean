import Mathlib.Data.List.TakeWhile
import Mathlib.Data.Prod.Lex
import ECapture.Library.Regex

/-!
# The version of the kernel

`pkg/util/kernel`: reading the version of the running kernel and comparing versions. A string is the
list of its runes. What the files under `/proc` and `uname` give is the host's; where one source
fails, the next one is asked.
-/

namespace ECapture.Probe.KernelVersion
open Library

/-- A string as `regexp` and `fmt` go through it. -/
abbrev Runes := List Char

/-! ## Numbers -/

def digit (c : Char) : Bool := decide ('0' ≤ c ∧ c ≤ '9')

def number (ds : Runes) : Nat := Nat.ofDigitChars 10 ds 0

/-- `strconv.ParseUint(_, 10, 8)`: the value, and whether there was no error. Beyond the range it is
the greatest value. -/
def parseUint8 (s : Runes) : Nat × Bool :=
  if s = [] ∨ ¬ s.all digit then (0, false)
  else if 255 < number s then (255, false)
  else (number s, true)

/-! ## Releases -/

/-- A dot in a regular expression. -/
def any (c : Char) : Bool := c != '\n'

/-- `^(\d+)\.(\d+)(?:.(\d+))?.*$` -/
def versionRegex : Regex Char :=
  .cat (.group (.plus digit)) (.cat (.one (· == '.')) (.cat (.group (.plus digit))
    (.cat (.opt (.cat (.one any) (.group (.plus digit)))) (.cat (.many any) .atEnd))))

/-- `major*256*256 + minor*256 + patch`, as a `uint32`. -/
def out (major minor patch : Nat) : UInt32 := UInt32.ofNat (major * 256 * 256 + minor * 256 + patch)

def kernelVersionFromReleaseString (releaseString : Runes) : Option UInt32 :=
  match versionRegex.matchFront releaseString with
  | some ([major, minor, patch], _) =>
    match parseUint8 major, parseUint8 minor with
    | (major, true), (minor, true) =>
      -- the error of an empty or too large patch is dropped
      let patch := (parseUint8 patch).1
      let patch := if major = 4 ∧ minor = 14 ∧ 252 ≤ patch then 255 else patch
      some (out major minor patch)
    | _, _ => none
  | _ => none

/-! ## Sources -/

/-- `isSpace` of `fmt`. -/
def space (c : Char) : Bool :=
  (9 ≤ c.toNat && c.toNat ≤ 13) || c.toNat == 0x20 || c.toNat == 0x85 || c.toNat == 0xA0 ||
  c.toNat == 0x1680 || (0x2000 ≤ c.toNat && c.toNat ≤ 0x200A) || c.toNat == 0x2028 ||
  c.toNat == 0x2029 || c.toNat == 0x202F || c.toNat == 0x205F || c.toNat == 0x3000

/-- `SkipSpace`, for which a line feed is an error, and `token`. -/
def scanWord (s : Runes) : Option (Runes × Runes) :=
  match s.dropWhile (fun c => space c && c != '\n') with
  | [] => none
  | '\n' :: _ => none
  | s => some (s.takeWhile fun c => !space c, s.dropWhile fun c => !space c)

/-- A space of the format: at least one space, unless the text is at its end. -/
def scanSpace : Runes → Option Runes
  | [] => some []
  | c :: s =>
    if !space c || c == '\n' then none
    else some (s.dropWhile fun c => space c && c != '\n')

/-- `fmt.Sscanf(procVersion, "%s %s %s", &u1, &u2, &releaseString)` -/
def parseUbuntuVersion (procVersion : Runes) : Option UInt32 := do
  let (_, s) ← scanWord procVersion
  let (_, s) ← scanWord (← scanSpace s)
  let (releaseString, _) ← scanWord (← scanSpace s)
  kernelVersionFromReleaseString releaseString

def alnum (c : Char) : Bool :=
  digit c || decide ('A' ≤ c ∧ c ≤ 'Z') || decide ('a' ≤ c ∧ c ≤ 'z')

/-- `.* SMP Debian (\d+\.\d+.\d+-\d+)(?:\+[[:alnum:]]*)?.*` -/
def debianVersionRegex : Regex Char :=
  .cat (.many any) (.cat (.lit " SMP Debian ".toList) (.cat
    (.group (.cat (.plus digit) (.cat (.one (· == '.')) (.cat (.plus digit) (.cat (.one any)
      (.cat (.plus digit) (.cat (.one (· == '-')) (.plus digit))))))))
    (.cat (.opt (.cat (.one (· == '+')) (.many alnum))) (.many any))))

def parseDebianVersion (s : Runes) : Option UInt32 :=
  match debianVersionRegex.findSubmatch s with
  | some ([release], _) => kernelVersionFromReleaseString release
  | _ => none

/-- `utsnameStr`: the bytes are appended to a slice that has its length already. -/
def utsnameStr (release : Runes) : Runes :=
  List.replicate release.length '\x00' ++ release.takeWhile (· != '\x00')

/-- `strings.Trim(_, "\x00")` -/
def trimZeros (s : Runes) : Runes :=
  ((s.dropWhile (· == '\x00')).reverse.dropWhile (· == '\x00')).reverse

/-- What the host says about its kernel; `none` is an error. -/
structure Host where
  /-- `/proc/version_signature`. -/
  versionSignature : Option Runes
  /-- `/proc/version`. -/
  version : Option Runes
  /-- The field `release` of `uname`. -/
  release : Option Runes

def currentVersionUname (host : Host) : Option UInt32 := do
  let release ← host.release
  kernelVersionFromReleaseString (trimZeros (utsnameStr release))

def currentKernelVersion (host : Host) : Option UInt32 :=
  (host.versionSignature.bind parseUbuntuVersion).or
    ((host.version.bind parseDebianVersion).or (currentVersionUname host))

/-! ## Versions -/

/-- `HostVersion`: the version and what the package variable `hostVersion` holds afterwards. -/
def hostVersion (host : Host) (cached : UInt32) : Option UInt32 × UInt32 :=
  if cached ≠ 0 then (some cached, cached)
  else
    match currentKernelVersion host with
    | none => (none, cached)
    | some kv => (some kv, kv)

/-- `(uint32(major) << 16) + (uint32(minor) << 8) + uint32(patch)` -/
def versionCode (major minor patch : UInt8) : UInt32 :=
  (major.toUInt32 <<< 16) + (minor.toUInt32 <<< 8) + patch.toUInt32

/-! ## What a release string is -/

def Digits (w : Runes) : Prop := w ≠ [] ∧ ∀ c ∈ w, digit c = true

/-- Two numbers with a dot between them, and on the same line anything that does not start with a
digit. The number behind its first rune, whatever that rune is, is the patch. -/
def Release (s major minor patch : Runes) : Prop :=
  ∃ rest, s = major ++ '.' :: (minor ++ rest) ∧ Digits major ∧ Digits minor ∧
    (∀ c ∈ rest.head?, digit c = false) ∧ '\n' ∉ rest ∧ patch = rest.tail.takeWhile digit

/-- The patch of the version: at most 255, and 255 from 4.14.252 on. -/
def sublevel (major minor patch : Nat) : Nat :=
  if major = 4 ∧ minor = 14 ∧ 252 ≤ min 255 patch then 255 else min 255 patch

/-- A release, told by evaluation. -/
theorem release_of_check {s major minor patch : Runes} (rest : Runes)
    (check : s = major ++ '.' :: (minor ++ rest) ∧ (major ≠ [] ∧ major.all digit = true) ∧
      (minor ≠ [] ∧ minor.all digit = true) ∧ rest.head?.all (fun c => !digit c) = true ∧
      '\n' ∉ rest ∧ patch = rest.tail.takeWhile digit) : Release s major minor patch := by
  obtain ⟨cut, majors, minors, stop, line, last⟩ := check
  refine ⟨rest, cut, ⟨majors.1, List.all_eq_true.mp majors.2⟩,
    ⟨minors.1, List.all_eq_true.mp minors.2⟩, fun c mem => ?_, line, last⟩
  simpa using (Option.all_eq_true _ _).mp stop c mem

theorem matchFront_rest {rest : Runes} (line : '\n' ∉ rest) :
    (Regex.cat (.many any) .atEnd).matchFront rest = some ([], []) := by
  have all : rest.dropWhile any = [] := by
    rw [List.dropWhile_eq_nil_iff]
    intro c mem
    simp only [any, bne_iff_ne]
    rintro rfl
    exact line mem
  exact Regex.matchFront_cat (Regex.matchFront_many.trans (by rw [all])) Regex.matchFront_atEnd

theorem matchFront_patch {rest : Runes} (line : '\n' ∉ rest) :
    (Regex.cat (.opt (.cat (.one any) (.group (.plus digit)))) (.cat (.many any) .atEnd)).matchFront
      rest = some ([rest.tail.takeWhile digit], []) := by
  by_cases absent : rest.tail.takeWhile digit = []
  · -- no number behind the first rune: the optional part is left out
    have none : ∀ x, x ∉ (Regex.cat (.one any) (.group (.plus digit))).runs rest := by
      intro x mem
      simp only [Regex.mem_runs_cat, Regex.mem_runs_one, Regex.mem_runs_group, Regex.plus] at mem
      obtain ⟨g, t', g', ⟨c, -, rfl, -⟩, ⟨w, g'', -, number, -⟩, -⟩ := mem
      obtain ⟨_, _, _, ⟨d, isDigit, rfl, -⟩, -⟩ := number
      simp [isDigit] at absent
    rw [absent]
    exact Regex.matchFront_cat (Regex.matchFront_alt_right none (Regex.matchFront_empty rest))
      (matchFront_rest line)
  · obtain ⟨c, r, rfl⟩ := List.exists_cons_of_ne_nil (l := rest) (by rintro rfl; exact absent rfl)
    obtain ⟨first, after⟩ := not_or.mp (mt List.mem_cons.mpr line)
    have ok : any c = true := by
      simp only [any, bne_iff_ne]
      exact Ne.symm first
    have cut : r.takeWhile digit ++ r.dropWhile digit = r := List.takeWhile_append_dropWhile
    have stop : ∀ d ∈ (r.dropWhile digit).head?, digit d = false := by
      intro d mem
      have head := List.head?_dropWhile_not digit r
      rw [Option.mem_def.mp mem] at head
      exact head
    have number : (Regex.group (.plus digit)).matchFront r =
        some ([r.takeWhile digit], r.dropWhile digit) := by
      have found :=
        Regex.matchFront_group_plus absent (fun d mem => List.mem_takeWhile_imp mem) stop
      rwa [List.tail_cons, cut] at found
    have line' : '\n' ∉ r.dropWhile digit := fun mem => after (List.dropWhile_subset _ mem)
    exact Regex.matchFront_cat
      (Regex.matchFront_alt_left (Regex.matchFront_cat (Regex.matchFront_one ok) number))
      (matchFront_rest line')

theorem matchFront_release {s major minor patch : Runes} (release : Release s major minor patch) :
    versionRegex.matchFront s = some ([major, minor, patch], []) := by
  obtain ⟨rest, rfl, majors, minors, stop, line, rfl⟩ := release
  have dot : ∀ c ∈ ('.' :: (minor ++ rest)).head?, digit c = false := by
    intro c mem
    rw [← Option.mem_some.mp mem]
    decide
  exact Regex.matchFront_cat (Regex.matchFront_group_plus majors.1 majors.2 dot)
    (Regex.matchFront_cat (Regex.matchFront_one rfl)
      (Regex.matchFront_cat (Regex.matchFront_group_plus minors.1 minors.2 stop)
        (matchFront_patch line)))

theorem line_of_mem_runs {rest : Runes} {x : Regex.Match Char} (mem : x ∈ (Regex.cat
    (.opt (.cat (.one any) (.group (.plus digit)))) (.cat (.many any) .atEnd)).runs rest) :
    '\n' ∉ rest := by
  have plain : ∀ c, any c = true → c ≠ '\n' := fun c ok => bne_iff_ne.mp ok
  have number : ∀ c, digit c = true → c ≠ '\n' := by
    rintro c isDigit rfl
    exact absurd isDigit (by decide)
  simp only [Regex.mem_runs_cat, Regex.mem_runs_opt, Regex.mem_runs_group, Regex.mem_runs_one,
    Regex.mem_runs_plus, Regex.mem_runs_many, Regex.mem_runs_atEnd] at mem
  obtain ⟨g, t', g', first, ⟨g₁, t₁, g₂, ⟨w, all, rfl, -⟩, ⟨rfl, -⟩, -⟩, -⟩ := mem
  have tail : '\n' ∉ w ++ [] := by
    rw [List.append_nil]
    exact fun mem => plain _ (all _ mem) rfl
  rcases first with ⟨g₃, t₃, g₄, ⟨c, ok, rfl, -⟩, ⟨v, g₅, rfl, ⟨w', -, digits, cut, -⟩, -⟩, -⟩ |
      ⟨rfl, -⟩
  · have same : v = w' := List.append_cancel_right cut
    subst same
    intro mem
    rcases List.mem_cons.mp mem with same | mem
    · exact plain _ ok same.symm
    · rcases List.mem_append.mp mem with mem | mem
      · exact number _ (digits _ mem) rfl
      · exact tail mem
  · exact tail

/-- There is one way to read a release. -/
theorem Release.unique {s major minor patch major' minor' patch' : Runes}
    (release : Release s major minor patch) (release' : Release s major' minor' patch') :
    major = major' ∧ minor = minor' ∧ patch = patch' := by
  have same := (matchFront_release release).symm.trans (matchFront_release release')
  simpa using same

/-- Whatever matches is a release: the digits before the dot are all there are, and those behind it
are part of a whole run. -/
theorem release_of_mem_runs {s : Runes} {x : Regex.Match Char} (mem : x ∈ versionRegex.runs s) :
    ∃ major minor patch, Release s major minor patch := by
  obtain ⟨_, t₁, _, first, after₁, -⟩ := Regex.mem_runs_cat.mp mem
  obtain ⟨_, t₂, _, dot, after₂, -⟩ := Regex.mem_runs_cat.mp after₁
  obtain ⟨_, t₃, _, second, after₃, -⟩ := Regex.mem_runs_cat.mp after₂
  obtain ⟨major, _, rfl, inner, -⟩ := Regex.mem_runs_group.mp first
  obtain ⟨w, nonempty, all, same, -⟩ := Regex.mem_runs_plus.mp inner
  obtain rfl : major = w := List.append_cancel_right same
  obtain ⟨c, isDot, rfl, -⟩ := Regex.mem_runs_one.mp dot
  obtain rfl := beq_iff_eq.mp isDot
  obtain ⟨front, _, rfl, inner, -⟩ := Regex.mem_runs_group.mp second
  obtain ⟨w', nonempty', all', same, -⟩ := Regex.mem_runs_plus.mp inner
  obtain rfl : front = w' := List.append_cancel_right same
  have line := line_of_mem_runs after₃
  have cut : t₃.takeWhile digit ++ t₃.dropWhile digit = t₃ := List.takeWhile_append_dropWhile
  refine ⟨major, front ++ t₃.takeWhile digit, _, t₃.dropWhile digit, ?_, ⟨nonempty, all⟩,
    ⟨by simp [nonempty'], ?_⟩, ?_, fun mem => line (List.dropWhile_subset _ mem), rfl⟩
  · rw [List.append_assoc, cut]
  · intro c mem
    rcases List.mem_append.mp mem with mem | mem
    · exact all' c mem
    · exact List.mem_takeWhile_imp mem
  · intro c mem
    have head := List.head?_dropWhile_not digit t₃
    rw [Option.mem_def.mp mem] at head
    exact head

/-! ## The code of a release -/

theorem parseUint8_digits {w : Runes} (digits : Digits w) :
    parseUint8 w = if 255 < number w then (255, false) else (number w, true) := by
  have all : ¬ (w = [] ∨ ¬ w.all digit = true) := by
    rw [not_or, not_not, List.all_eq_true]
    exact digits
  rw [parseUint8, if_neg all]

theorem parseUint8_patch {s major minor patch : Runes} (release : Release s major minor patch) :
    (parseUint8 patch).1 = min 255 (number patch) := by
  by_cases empty : patch = []
  · rw [empty]
    rfl
  · obtain ⟨rest, -, -, -, -, -, rfl⟩ := release
    rw [parseUint8_digits ⟨empty, fun c mem => List.mem_takeWhile_imp mem⟩]
    split <;> omega

theorem kernelVersion_eq_some {s : Runes} {v : UInt32} :
    kernelVersionFromReleaseString s = some v ↔
      ∃ major minor patch, Release s major minor patch ∧ number major ≤ 255 ∧ number minor ≤ 255 ∧
        v = out (number major) (number minor)
          (sublevel (number major) (number minor) (number patch)) := by
  have code : ∀ {major minor patch}, Release s major minor patch →
      (kernelVersionFromReleaseString s = some v ↔ number major ≤ 255 ∧ number minor ≤ 255 ∧
        v = out (number major) (number minor)
          (sublevel (number major) (number minor) (number patch))) := by
    intro major minor patch release
    have last := parseUint8_patch release
    have release' := release
    obtain ⟨-, -, majors, minors, -⟩ := release'
    rw [kernelVersionFromReleaseString, matchFront_release release]
    dsimp only
    rw [parseUint8_digits majors, parseUint8_digits minors]
    by_cases big : 255 < number major
    · simp [big, Nat.not_le.mpr big]
    · by_cases big' : 255 < number minor
      · simp [big, big', Nat.not_le.mpr big']
      · simp [big, big', Nat.not_lt.mp big, Nat.not_lt.mp big', last, sublevel, eq_comm]
  constructor
  · intro read
    cases found : versionRegex.matchFront s with
    | none => simp [kernelVersionFromReleaseString, found] at read
    | some x =>
      obtain ⟨major, minor, patch, release⟩ := release_of_mem_runs (Regex.mem_of_matchFront found)
      exact ⟨major, minor, patch, release, (code release).mp read⟩
  · rintro ⟨major, minor, patch, release, bounds⟩
    exact (code release).mpr bounds

/-! ## The order of versions -/

/-- The three numbers of a release, the patch as far as the code can hold it. -/
def fields (major minor patch : Runes) : Nat ×ₗ Nat ×ₗ Nat :=
  toLex (number major, toLex (number minor,
    sublevel (number major) (number minor) (number patch)))

theorem sublevel_le (major minor patch : Nat) : sublevel major minor patch ≤ 255 := by
  unfold sublevel
  split <;> omega

theorem toNat_out {major minor patch : Nat} (hmajor : major ≤ 255) (hminor : minor ≤ 255)
    (hpatch : patch ≤ 255) :
    (out major minor patch).toNat = major * 65536 + minor * 256 + patch := by
  rw [out, UInt32.toNat_ofNat', Nat.mod_eq_of_lt (by omega)]
  omega

/-- Codes are ordered as the numbers of the releases are. -/
theorem code_le_iff {major minor patch major' minor' patch' : Nat} (hmajor : major ≤ 255)
    (hminor : minor ≤ 255) (hpatch : patch ≤ 255) (hmajor' : major' ≤ 255) (hminor' : minor' ≤ 255)
    (hpatch' : patch' ≤ 255) :
    out major minor patch ≤ out major' minor' patch' ↔
      toLex (major, toLex (minor, patch)) ≤ toLex (major', toLex (minor', patch')) := by
  rw [UInt32.le_iff_toNat_le, toNat_out hmajor hminor hpatch, toNat_out hmajor' hminor' hpatch',
    Prod.Lex.toLex_le_toLex, Prod.Lex.toLex_le_toLex]
  omega

/-- Release strings are ordered by their three numbers, whatever stands behind these. -/
theorem version_order {s s' major minor patch major' minor' patch' : Runes} {v v' : UInt32}
    (release : Release s major minor patch) (release' : Release s' major' minor' patch')
    (read : kernelVersionFromReleaseString s = some v)
    (read' : kernelVersionFromReleaseString s' = some v') :
    v ≤ v' ↔ fields major minor patch ≤ fields major' minor' patch' := by
  obtain ⟨a, b, c, found, ha, hb, rfl⟩ := kernelVersion_eq_some.mp read
  obtain ⟨a', b', c', found', ha', hb', rfl⟩ := kernelVersion_eq_some.mp read'
  obtain ⟨rfl, rfl, rfl⟩ := release.unique found
  obtain ⟨rfl, rfl, rfl⟩ := release'.unique found'
  exact code_le_iff ha hb (sublevel_le ..) ha' hb' (sublevel_le ..)

theorem version_order_two_releases :
    ∃ v v', kernelVersionFromReleaseString "5.4.0-52-generic".toList = some v ∧
      kernelVersionFromReleaseString "5.10-rc1".toList = some v' ∧ v ≤ v' := by
  have release : Release "5.4.0-52-generic".toList "5".toList "4".toList "0".toList :=
    release_of_check ".0-52-generic".toList (by decide)
  have release' : Release "5.10-rc1".toList "5".toList "10".toList [] :=
    release_of_check "-rc1".toList (by decide)
  obtain ⟨v, read⟩ : ∃ v, kernelVersionFromReleaseString "5.4.0-52-generic".toList = some v :=
    Option.isSome_iff_exists.mp (by decide)
  obtain ⟨v', read'⟩ : ∃ v, kernelVersionFromReleaseString "5.10-rc1".toList = some v :=
    Option.isSome_iff_exists.mp (by decide)
  exact ⟨v, v', read, read', (version_order release release' read read').mpr (by decide)⟩

end ECapture.Probe.KernelVersion
