import ECapture.Errors
import ECapture.Library.Scan

/-!
# Looking for the version of a library

`detectOpenssl` of `internal/probe/openssl/config.go` and `readGnuTLSVersion` of
`internal/probe/gnutls/config.go` search the `.rodata` section of a library for its version. Both
read chunks of 1 MB from the start of the section, with an overlap, until they have passed the
size of the section; a read may go beyond the section to the end of the file.
-/

namespace ECapture.Probe
open Library

/-! ## Libraries -/

/-- `elf.Machine`. -/
inductive ElfMachine where
  | x86_64
  | aarch64
  | other (name : Bytes)

structure Section where
  offset : Nat
  size : Nat

/-- A file that `debug/elf` accepts. Its length is an `int64`, and the section lies within it, so
the conversions of its header to `int` and `int64` change nothing. -/
structure ElfFile where
  path : Bytes
  content : Bytes
  machine : ElfMachine
  rodata : Option Section
  length_lt : content.length < 2 ^ 63
  within : ∀ s ∈ rodata, s.offset + s.size ≤ content.length

def chunkLen : Nat := 1024 * 1024

/-- Fill a buffer of one chunk up with the zeros of `clear(buf)`. -/
def fill (read : Bytes) : Bytes := read ++ List.replicate (chunkLen - read.length) 0

def lower (bs : Bytes) : Bytes := bs.map (fun c => if 65 ≤ c ∧ c ≤ 90 then c + 32 else c)

/-! ## OpenSSL -/

def openSslVersionLen : Nat := 30

def errProbeOpensslVerNotFound : Error := .text (str "OpenSSL/BoringSSL version not found")

/-- `\s`. -/
def isSpace (b : UInt8) : Bool := b == 9 || b == 10 || b == 12 || b == 13 || b == 32
def isDigit (b : UInt8) : Bool := decide (48 ≤ b ∧ b ≤ 57)
def isWord (b : UInt8) : Bool := isDigit b || decide (97 ≤ b ∧ b ≤ 122)

/-- `OpenSSL\s\d\.\d\.[0-9a-z]+`; the last class of the head is the first round of the repetition. -/
def opensslRex : Pattern where
  head := (str "OpenSSL").map (fun c b => b == c) ++
    [isSpace, isDigit, (· == 46), isDigit, (· == 46), isWord]
  tail := isWord

def opensslScan (f : ElfFile) (s : Section) : Scan Bytes :=
  { file := f.content, offset := s.offset, limit := s.size, chunk := chunkLen,
    overlap := openSslVersionLen, find := fun read => opensslRex.find (fill read) }

/-- The end of `detectOpenssl`. -/
def opensslVersion (versionKey : Option Bytes) : Except Error Bytes :=
  match versionKey with
  | none => .error errProbeOpensslVerNotFound
  | some versionKey => .ok (lower versionKey)

/-- `detectOpenssl` with `fuel` rounds of its loop; `none` means that it has not returned yet. -/
def detectOpenssl (f : ElfFile) (fuel : Nat) : Option (Except Error Bytes) :=
  match f.machine with
  | .other name =>
    some (.error (.text (str "unsupported arch library ,ELF Header Machine is :" ++ name ++
      str ", must be one of EM_X86_64 and EM_AARCH64")))
  | _ =>
    match f.rodata with
    | none =>
      some (.error (.text (str "detect openssl version failed, cant read .rodata section from " ++
        f.path)))
    | some s => ((opensslScan f s).run fuel 0).map opensslVersion

/-! ## GnuTLS -/

def isVersionByte (b : UInt8) : Bool := isDigit b || b == 46

def gnutlsFront : List (UInt8 → Bool) := (str "Enabled GnuTLS ").map (fun c b => b == c)
def gnutlsBack : List (UInt8 → Bool) := (str " logging").map (fun c b => b == c)

/-- The group of `Enabled GnuTLS ([0-9\.]+) logging`, matched at the front. -/
def gnutlsAt (bs : Bytes) : Option Bytes :=
  let group := (bs.drop gnutlsFront.length).takeWhile isVersionByte
  if Pattern.fits gnutlsFront bs ∧ group ≠ [] ∧
      Pattern.fits gnutlsBack (bs.drop (gnutlsFront.length + group.length)) then some group
  else none

/-- The group of the leftmost match. -/
def gnutlsFind : Bytes → Option Bytes
  | [] => none
  | b :: bs =>
    match gnutlsAt (b :: bs) with
    | some group => some group
    | none => gnutlsFind bs

def gnutlsScan (f : ElfFile) (s : Section) : Scan Bytes :=
  { file := f.content, offset := s.offset, limit := s.size, chunk := chunkLen, overlap := 32,
    find := gnutlsFind }

/-- The end of `readGnuTLSVersion`. -/
def gnutlsVersion (f : ElfFile) (version : Option Bytes) : Except Error Bytes :=
  match version with
  | none => .error (.text (str "GnuTLS version string not found in " ++ f.path))
  | some version => .ok version

def readGnuTLSVersion (f : ElfFile) (fuel : Nat) : Option (Except Error Bytes) :=
  match f.machine with
  | .other name => some (.error (.text (str "unsupported architecture: " ++ name)))
  | _ =>
    match f.rodata with
    | none => some (.error (.text (str "cannot find .rodata section in " ++ f.path)))
    | some s => ((gnutlsScan f s).run fuel 0).map (gnutlsVersion f)

/-! ## The loops -/

/-- The functions get to their loop. -/
structure ElfFile.Scanned (f : ElfFile) (s : Section) : Prop where
  machine : ∀ name, f.machine ≠ .other name
  rodata : f.rodata = some s

variable {f : ElfFile} {s : Section}

theorem ElfFile.Scanned.within (h : f.Scanned s) : s.offset + s.size ≤ f.content.length :=
  f.within s h.rodata

theorem detectOpenssl_eq (h : f.Scanned s) (fuel : Nat) :
    detectOpenssl f fuel = ((opensslScan f s).run fuel 0).map opensslVersion := by
  unfold detectOpenssl
  split
  case h_1 name eq => exact absurd eq (h.machine name)
  case h_2 => rw [h.rodata]

theorem readGnuTLSVersion_eq (h : f.Scanned s) (fuel : Nat) :
    readGnuTLSVersion f fuel = ((gnutlsScan f s).run fuel 0).map (gnutlsVersion f) := by
  unfold readGnuTLSVersion
  split
  case h_1 name eq => exact absurd eq (h.machine name)
  case h_2 => rw [h.rodata]

/-! ## Files without a match -/

theorem opensslRex_head : opensslRex.head ≠ [] ∧ opensslRex.head.length = 13 := by decide

theorem opensslRex_noZero : opensslRex.NoZero := by
  have heads : opensslRex.head.all (fun c => c 0 == false) = true := by decide
  exact ⟨fun c mem => eq_of_beq (List.all_eq_true.mp heads c mem), by decide⟩

/-- The zeros in the buffer do not matter. -/
theorem find_fill (read : Bytes) : opensslRex.find (fill read) = opensslRex.find read :=
  Pattern.find_append_zeros opensslRex_noZero opensslRex_head.1 _ read

theorem opensslScan_quiet (none_ : opensslRex.find f.content = none) (s : Section) (t : Int) :
    (opensslScan f s).find ((opensslScan f s).read t) = none := by
  rcases opensslRex.firstAt_or f.content with ⟨a, first⟩ | nowhere
  · rw [Pattern.find_of_firstAt opensslRex_head.1 first] at none_
    cases none_
  · refine (find_fill _).trans ?_
    exact Pattern.find_window_nowhere nowhere _ _

/-- A match in a part of the bytes is a match in all of them. -/
theorem gnutlsAt_of_take {bs group : Bytes} {n : Nat} (h : gnutlsAt (bs.take n) = some group) :
    gnutlsAt bs = some group := by
  unfold gnutlsAt at h ⊢
  dsimp only at h ⊢
  rw [List.drop_take, Pattern.takeWhile_take] at h
  split at h
  case isFalse => cases h
  case isTrue fits =>
    obtain ⟨front, some_, back⟩ := fits
    rw [List.drop_take, Pattern.fits_take] at back
    -- something follows the group, so the group has not been cut
    have whole : ((bs.drop gnutlsFront.length).takeWhile isVersionByte).take
        (n - gnutlsFront.length) = (bs.drop gnutlsFront.length).takeWhile isVersionByte := by
      have room := back.2
      have eight : gnutlsBack.length = 8 := by decide
      rw [List.length_take] at room
      exact List.take_of_length_le (by omega)
    rw [whole] at some_ back h
    rw [if_pos ⟨(Pattern.fits_take.mp front).1, some_, back.1⟩]
    exact h

theorem gnutlsFind_eq_none {bs : Bytes} :
    gnutlsFind bs = none ↔ ∀ i < bs.length, gnutlsAt (bs.drop i) = none := by
  induction bs with
  | nil => simp [gnutlsFind]
  | cons b bs ih =>
    rw [gnutlsFind]
    constructor
    · intro h i lt
      split at h
      case h_1 => cases h
      case h_2 here =>
        cases i with
        | zero => exact here
        | succ i => exact ih.mp h i (by simpa using lt)
    · intro h
      have here := h 0 (by simp)
      rw [List.drop_zero] at here
      rw [here]
      exact ih.mpr fun i lt => h (i + 1) (by simpa using lt)

theorem gnutlsScan_quiet (none_ : gnutlsFind f.content = none) (s : Section) (t : Int) :
    (gnutlsScan f s).find ((gnutlsScan f s).read t) = none := by
  refine gnutlsFind_eq_none.mpr fun i lt => ?_
  cases found : gnutlsAt (((gnutlsScan f s).read t).drop i) with
  | none => rfl
  | some group =>
    rw [Scan.read, List.drop_take, List.drop_drop] at found
    rw [Scan.read, List.length_take, List.length_drop] at lt
    have here := gnutlsFind_eq_none.mp none_ (((gnutlsScan f s).offset + t).toNat + i)
      (by simp only [gnutlsScan] at lt ⊢; omega)
    cases (gnutlsAt_of_take found).symm.trans here

/-! ## Termination -/

/-- There is nothing to scan, or the file goes on for at least the overlap behind the section.
(A file shorter than the overlap, which no ELF file is, lets the second seek fail.) -/
def Room (f : ElfFile) (s : Section) (overlap : Nat) : Prop :=
  s.size = 0 ∨ s.offset + s.size + overlap ≤ f.content.length ∨ f.content.length < overlap

theorem detectOpenssl_terminates_iff (h : f.Scanned s) (none_ : opensslRex.find f.content = none) :
    (∃ fuel r, detectOpenssl f fuel = some r) ↔ Room f s 30 := by
  have within := h.within
  simp only [detectOpenssl_eq h]
  rw [Scan.exists_run_map, Scan.terminates_iff (opensslScan_quiet none_ s)
    (show 30 < chunkLen by decide) (by simp only [opensslScan]; omega)]
  simp only [opensslScan, openSslVersionLen, Room]
  omega

theorem readGnuTLSVersion_terminates_iff (h : f.Scanned s) (none_ : gnutlsFind f.content = none) :
    (∃ fuel r, readGnuTLSVersion f fuel = some r) ↔ Room f s 32 := by
  have within := h.within
  simp only [readGnuTLSVersion_eq h]
  rw [Scan.exists_run_map, Scan.terminates_iff (gnutlsScan_quiet none_ s)
    (show 32 < chunkLen by decide) (by simp only [gnutlsScan]; omega)]
  simp only [gnutlsScan, Room]
  omega

/-- When the two loops come to an end in a file without a match. -/
theorem scans_terminate_iff (h : f.Scanned s) :
    (opensslRex.find f.content = none →
      ((∃ fuel r, detectOpenssl f fuel = some r) ↔ Room f s 30)) ∧
    (gnutlsFind f.content = none →
      ((∃ fuel r, readGnuTLSVersion f fuel = some r) ↔ Room f s 32)) :=
  ⟨detectOpenssl_terminates_iff h, readGnuTLSVersion_terminates_iff h⟩

def zeros : Bytes := List.replicate 200 0

theorem length_zeros : zeros.length = 200 := List.length_replicate

theorem zeros_within {s : Section} (within : s.offset + s.size ≤ 200) :
    ∀ r ∈ some s, r.offset + r.size ≤ zeros.length := by
  intro r mem
  cases mem
  rwa [length_zeros]

/-- A file of 200 zeros with a section. -/
def blankFile (s : Section) (within : s.offset + s.size ≤ 200) : ElfFile :=
  { path := str "libssl.so", content := zeros, machine := .x86_64, rodata := some s,
    length_lt := by rw [length_zeros]; decide
    within := zeros_within within }

theorem scanned_blankFile {s : Section} (within : s.offset + s.size ≤ 200) :
    (blankFile s within).Scanned s := by
  constructor
  · intro name eq
    cases eq
  · rfl

theorem room_blankFile {s : Section} (within : s.offset + s.size ≤ 200) (overlap : Nat) :
    Room (blankFile s within) s overlap ↔
      s.size = 0 ∨ s.offset + s.size + overlap ≤ 200 ∨ 200 < overlap := by
  rw [Room, show (blankFile s within).content.length = 200 from length_zeros]

theorem scans_terminate_blank :
    ((∃ fuel r, detectOpenssl (blankFile ⟨100, 60⟩ (by decide)) fuel = some r) ↔
      Room (blankFile ⟨100, 60⟩ (by decide)) ⟨100, 60⟩ 30) ∧
    ((∃ fuel r, readGnuTLSVersion (blankFile ⟨100, 60⟩ (by decide)) fuel = some r) ↔
      Room (blankFile ⟨100, 60⟩ (by decide)) ⟨100, 60⟩ 32) :=
  ⟨(scans_terminate_iff (scanned_blankFile _)).1 (by decide +kernel),
    (scans_terminate_iff (scanned_blankFile _)).2 (by decide +kernel)⟩

/-- A section that ends the file is read for ever. -/
theorem scans_never_end :
    (¬ ∃ fuel r, detectOpenssl (blankFile ⟨100, 100⟩ (by decide)) fuel = some r) ∧
    ¬ ∃ fuel r, readGnuTLSVersion (blankFile ⟨100, 100⟩ (by decide)) fuel = some r := by
  rw [detectOpenssl_terminates_iff (scanned_blankFile _) (by decide +kernel),
    readGnuTLSVersion_terminates_iff (scanned_blankFile _) (by decide +kernel),
    room_blankFile, room_blankFile]
  decide

/-! ## The section as a whole -/

/-- The bytes of the section. -/
def ElfFile.sectionBytes (f : ElfFile) (s : Section) : Bytes := window f.content s.offset s.size

/-- The bytes from the start of the section to the end of the file. -/
def ElfFile.fromSection (f : ElfFile) (s : Section) : Bytes := f.content.drop s.offset

/-- The number of full chunks that end before the first 13 bytes of a match at `a` do. -/
def chunksBefore (a : Nat) : Nat := (a + 13 - chunkLen + (chunkLen - 31)) / (chunkLen - 30)

def chunkStart (a : Nat) : Nat := chunksBefore a * (chunkLen - openSslVersionLen)
def chunkEnd (a : Nat) : Nat := chunkStart a + chunkLen

/-- How far the match at `a` goes if nothing cuts it. -/
def matchEnd (f : ElfFile) (s : Section) (a : Nat) : Nat :=
  a + (opensslRex.text ((f.fromSection s).drop a)).length

/-- The chunk that has the leftmost match of the file shows as much of it as the section does, or
the scan stops before that chunk if the match is not one of the section. Without a match in the file
the scan has to come to an end. -/
def SameMatch (f : ElfFile) (s : Section) : Prop :=
  (∀ a, opensslRex.FirstAt (f.fromSection s) a →
    if a + 13 ≤ s.size then
      matchEnd f s a ≤ min s.size (chunkEnd a) ∨ s.size = chunkEnd a
    else s.size ≤ chunkStart a) ∧
  ((∀ a, ¬ Pattern.fits opensslRex.head ((f.fromSection s).drop a)) → Room f s 30)

theorem chunk_before {a j : Nat} (lt : j < chunksBefore a) :
    j * (chunkLen - openSslVersionLen) + chunkLen < a + 13 := by
  simp only [chunksBefore, chunkLen, openSslVersionLen] at lt ⊢
  omega

theorem le_chunkEnd (a : Nat) : a + 13 ≤ chunkEnd a := by
  simp only [chunkEnd, chunkStart, chunksBefore, chunkLen, openSslVersionLen]
  omega

theorem chunkStart_le (a : Nat) : chunkStart a ≤ a := by
  simp only [chunkStart, chunksBefore, chunkLen, openSslVersionLen]
  omega

theorem pos_opensslScan (f : ElfFile) (s : Section) (k : Nat) :
    (opensslScan f s).pos k = (k * (chunkLen - openSslVersionLen) : Nat) := by
  rw [Scan.pos, Int.natCast_mul, Int.ofNat_sub (show openSslVersionLen ≤ chunkLen by decide)]
  rfl

theorem find_opensslScan (f : ElfFile) (s : Section) (t : Nat) :
    (opensslScan f s).find ((opensslScan f s).read t) =
      opensslRex.find (window (f.fromSection s) t chunkLen) := by
  refine (find_fill _).trans ?_
  rw [Scan.read, window, ElfFile.fromSection, List.drop_drop]
  rfl

/-- What the scan of a file with a match in or behind the section returns. -/
theorem opensslScan_returns (within : s.offset + s.size ≤ f.content.length) {a : Nat}
    (first : opensslRex.FirstAt (f.fromSection s) a) :
    (opensslScan f s).Returns 0 (if chunkStart a < s.size then
      some ((opensslRex.text ((f.fromSection s).drop a)).take (chunkEnd a - a)) else none) := by
  have long := Pattern.length_of_fits first.1
  rw [opensslRex_head.2, List.length_drop, ElfFile.fromSection, List.length_drop] at long
  have here := pos_opensslScan f s (chunksBefore a)
  refine Scan.returns_after (k := chunksBefore a) (show 30 < chunkLen by decide) ?full ?quiet ?past ?_
  case full =>
    intro j lt
    have before := chunk_before lt
    rw [pos_opensslScan]
    simp only [opensslScan]
    omega
  case quiet =>
    intro j lt
    rw [pos_opensslScan, find_opensslScan]
    refine Pattern.find_window_before opensslRex_head.1 first ?_
    rw [opensslRex_head.2]
    exact chunk_before lt
  case past =>
    intro past
    rw [here] at past
    exact if_neg (by simp only [opensslScan, chunkStart] at past ⊢; omega)
  rw [here]
  split
  case isTrue inside =>
    have le := chunkStart_le a
    refine .of_inl (Scan.step_found ?below ?some_ ?found)
    case below =>
      simp only [opensslScan, chunkStart] at inside ⊢
      omega
    case some_ =>
      refine Scan.read_ne_nil ?_ ?_ (show 0 < chunkLen by decide) ?_
      all_goals simp only [opensslScan, chunkStart] at inside ⊢
      all_goals omega
    case found =>
      rw [find_opensslScan]
      have cover := le_chunkEnd a
      rw [← opensslRex_head.2] at cover
      exact Pattern.find_window opensslRex_head.1 first le cover
  case isFalse outside =>
    refine .of_inl (Scan.step_past ?_)
    simp only [opensslScan, chunkStart] at outside ⊢
    omega

/-- What a search of the section finds. -/
theorem find_sectionBytes {a : Nat} (first : opensslRex.FirstAt (f.fromSection s) a) :
    opensslRex.find (f.sectionBytes s) = if a + 13 ≤ s.size then
      some ((opensslRex.text ((f.fromSection s).drop a)).take (s.size - a)) else none := by
  have same : f.sectionBytes s = window (f.fromSection s) 0 s.size := by
    rw [ElfFile.sectionBytes, window, window, List.drop_zero]
    rfl
  rw [same]
  split
  case isTrue inside =>
    rw [Pattern.find_window opensslRex_head.1 first (Nat.zero_le a)
      (by rw [opensslRex_head.2]; omega), Nat.zero_add]
  case isFalse outside =>
    exact Pattern.find_window_before opensslRex_head.1 first (by rw [opensslRex_head.2]; omega)

theorem detectOpenssl_iff (h : f.Scanned s) {found : Option Bytes}
    (returns : (opensslScan f s).Returns 0 found) (result : Except Error Bytes) :
    (∃ fuel, detectOpenssl f fuel = some result) ↔ opensslVersion found = result := by
  simp only [detectOpenssl_eq h, Option.map_eq_some_iff]
  constructor
  · rintro ⟨fuel, found', done, same⟩
    rwa [returns.unique ⟨fuel, done⟩]
  · intro same
    obtain ⟨fuel, done⟩ := returns
    exact ⟨fuel, found, done, same⟩

/-- Two cuts of a match give the same version if they are equally long. -/
theorem opensslVersion_take_iff (text : Bytes) (m n : Nat) :
    opensslVersion (some (text.take m)) = opensslVersion (some (text.take n)) ↔
      min m text.length = min n text.length := by
  constructor
  · intro same
    have lengths := congrArg List.length (Except.ok.inj same)
    simpa only [lower, List.length_map, List.length_take] using lengths
  · intro same
    have cut : text.take m = text.take n := by
      rw [List.take_eq_take_min (i := m), List.take_eq_take_min (i := n), same]
    rw [cut]

theorem detectOpenssl_firstAt (h : f.Scanned s) {a : Nat}
    (first : opensslRex.FirstAt (f.fromSection s) a) :
    (∃ fuel, detectOpenssl f fuel = some (opensslVersion (opensslRex.find (f.sectionBytes s)))) ↔
      if a + 13 ≤ s.size then matchEnd f s a ≤ min s.size (chunkEnd a) ∨ s.size = chunkEnd a
      else s.size ≤ chunkStart a := by
  rw [detectOpenssl_iff h (opensslScan_returns h.within first), find_sectionBytes first]
  have le := chunkStart_le a
  have cover := le_chunkEnd a
  by_cases inside : a + 13 ≤ s.size
  · rw [if_pos inside, if_pos inside, if_pos (show chunkStart a < s.size by omega),
      opensslVersion_take_iff, matchEnd]
    omega
  · rw [if_neg inside, if_neg inside]
    split
    case isTrue read => simp [opensslVersion, read]
    case isFalse unread => simp [Nat.le_of_not_lt unread]

theorem detectOpenssl_nowhere (h : f.Scanned s)
    (nowhere : ∀ a, ¬ Pattern.fits opensslRex.head ((f.fromSection s).drop a)) :
    (∃ fuel, detectOpenssl f fuel = some (opensslVersion (opensslRex.find (f.sectionBytes s)))) ↔
      Room f s 30 := by
  have within := h.within
  have quiet : ∀ t, 0 ≤ t → (opensslScan f s).find ((opensslScan f s).read t) = none := by
    intro t start
    obtain ⟨t, rfl⟩ := Int.eq_ofNat_of_zero_le start
    rw [find_opensslScan]
    exact Pattern.find_window_nowhere nowhere _ _
  have nothing : opensslRex.find (f.sectionBytes s) = none := by
    refine Pattern.find_eq_none fun i fit => ?_
    rw [ElfFile.sectionBytes, Pattern.fits_drop_window] at fit
    exact nowhere i (by rw [ElfFile.fromSection, List.drop_drop]; exact fit.1)
  have room := Scan.returns_none_iff quiet (show 30 < chunkLen by decide)
    (by simp only [opensslScan]; omega)
  have iff_room : (opensslScan f s).Returns 0 none ↔ Room f s 30 := by
    rw [room, Room]
    simp only [opensslScan, openSslVersionLen]
    omega
  rw [nothing, ← iff_room]
  constructor
  · rintro ⟨fuel, done⟩
    rw [detectOpenssl_eq h] at done
    obtain ⟨found, done, same⟩ := Option.map_eq_some_iff.mp done
    cases found with
    | none => exact ⟨fuel, done⟩
    | some found => cases same
  · intro done
    exact (detectOpenssl_iff h done _).mpr rfl

theorem detectOpenssl_sameMatch (h : f.Scanned s) :
    (∃ fuel, detectOpenssl f fuel = some (opensslVersion (opensslRex.find (f.sectionBytes s)))) ↔
      SameMatch f s := by
  rcases opensslRex.firstAt_or (f.fromSection s) with ⟨a, first⟩ | nowhere
  · rw [detectOpenssl_firstAt h first]
    constructor
    · intro here
      refine ⟨fun b firstB => ?_, fun nowhere => absurd first.1 (nowhere a)⟩
      rwa [← first.unique firstB]
    · exact fun same => same.1 a first
  · rw [detectOpenssl_nowhere h nowhere]
    constructor
    · exact fun room => ⟨fun a first => absurd first.1 (nowhere a), fun _ => room⟩
    · exact fun same => same.2 nowhere

/-- The error for other machines is no result of a search. -/
theorem detectOpenssl_other {name : Bytes} (other : f.machine = .other name) (fuel : Nat)
    (found : Option Bytes) : detectOpenssl f fuel ≠ some (opensslVersion found) := by
  intro same
  rw [detectOpenssl, other] at same
  cases found with
  | some found => cases same
  | none =>
    have texts := Error.text.inj (Except.error.inj (Option.some.inj same))
    rw [List.append_assoc] at texts
    have fronts := congrArg (List.take 1) texts
    rw [List.take_append_of_le_length (by decide)] at fronts
    revert fronts
    decide

/-- When `detectOpenssl` returns what a search of the section as a whole gives. -/
theorem detectOpenssl_section_iff (rodata : f.rodata = some s) :
    (∃ fuel, detectOpenssl f fuel = some (opensslVersion (opensslRex.find (f.sectionBytes s)))) ↔
      (∀ name, f.machine ≠ .other name) ∧ SameMatch f s := by
  by_cases supported : ∀ name, f.machine ≠ .other name
  · rw [detectOpenssl_sameMatch ⟨supported, rodata⟩]
    exact (and_iff_right supported).symm
  · obtain ⟨name, other⟩ := not_forall.mp supported
    rw [not_not] at other
    constructor
    · rintro ⟨fuel, same⟩
      exact absurd same (detectOpenssl_other other fuel _)
    · exact fun both => absurd both.1 supported

theorem detectOpenssl_section_blank :
    (∃ fuel, detectOpenssl (blankFile ⟨100, 60⟩ (by decide)) fuel =
      some (opensslVersion (opensslRex.find
        ((blankFile ⟨100, 60⟩ (by decide)).sectionBytes ⟨100, 60⟩)))) ↔
    (∀ name, (blankFile ⟨100, 60⟩ (by decide)).machine ≠ .other name) ∧
      SameMatch (blankFile ⟨100, 60⟩ (by decide)) ⟨100, 60⟩ :=
  detectOpenssl_section_iff rfl

/-! ## A version at the end of a chunk -/

def splitVersion : Bytes := str "OpenSSL 3.0.12"

def splitBytes : Bytes :=
  List.replicate (64 + (chunkLen - 13)) 0 ++ (splitVersion ++ List.replicate 100 0)

theorem length_splitBytes : splitBytes.length = chunkLen + 165 := by
  rw [splitBytes, List.length_append, List.length_append, List.length_replicate,
    List.length_replicate]
  decide

def splitSection : Section := ⟨64, chunkLen + 1⟩

theorem splitSection_within :
    ∀ r ∈ some splitSection, r.offset + r.size ≤ splitBytes.length := by
  intro r mem
  cases mem
  rw [length_splitBytes]
  decide

/-- The chunk of the section ends between the last two digits of the version. -/
def splitFile : ElfFile :=
  { path := str "libcrypto.so", content := splitBytes, machine := .x86_64,
    rodata := some splitSection, length_lt := by rw [length_splitBytes]; decide
    within := splitSection_within }

theorem fromSection_splitFile : splitFile.fromSection splitSection =
    List.replicate (chunkLen - 13) 0 ++ (splitVersion ++ List.replicate 100 0) := by
  show (List.replicate (64 + (chunkLen - 13)) 0 ++ _).drop 64 = _
  rw [List.drop_append_of_le_length (by rw [List.length_replicate]; decide), List.drop_replicate]
  rw [show 64 + (chunkLen - 13) - 64 = chunkLen - 13 by decide]

/-- The version in the file begins 13 bytes before the end of the first chunk. -/
theorem firstAt_splitFile :
    opensslRex.FirstAt (splitFile.fromSection splitSection) (chunkLen - 13) := by
  rw [fromSection_splitFile]
  constructor
  · rw [List.drop_left' List.length_replicate]
    decide
  · intro b lt
    rw [List.drop_append_of_le_length (by rw [List.length_replicate]; omega), List.drop_replicate]
    obtain ⟨k, eq⟩ := Nat.exists_eq_add_of_lt lt
    rw [show chunkLen - 13 - b = k + 1 by omega, List.replicate_succ]
    exact Bool.false_ne_true

theorem scanned_splitFile : splitFile.Scanned splitSection := by
  constructor
  · intro name eq
    cases eq
  · rfl

/-- The text from the version on. -/
theorem text_splitFile :
    opensslRex.text ((splitFile.fromSection splitSection).drop (chunkLen - 13)) = splitVersion := by
  rw [fromSection_splitFile, List.drop_left' List.length_replicate]
  decide

theorem find_splitFile :
    opensslRex.find (splitFile.sectionBytes splitSection) = some splitVersion := by
  rw [find_sectionBytes firstAt_splitFile, text_splitFile, if_pos (by decide)]
  decide

theorem opensslScan_splitFile :
    (opensslScan splitFile splitSection).Returns 0 (some (str "OpenSSL 3.0.1")) := by
  have returns := opensslScan_returns scanned_splitFile.within firstAt_splitFile
  rw [text_splitFile, if_pos (by decide)] at returns
  exact returns

/-- The file has version 3.0.12 in its section, and `detectOpenssl` returns 3.0.1. -/
theorem split_version_lost :
    opensslRex.find (splitFile.sectionBytes splitSection) = some (str "OpenSSL 3.0.12") ∧
    (∃ fuel, detectOpenssl splitFile fuel = some (.ok (str "openssl 3.0.1"))) ∧
    ¬ ∃ fuel, detectOpenssl splitFile fuel =
      some (opensslVersion (opensslRex.find (splitFile.sectionBytes splitSection))) := by
  refine ⟨find_splitFile, ?_, ?_⟩
  · rw [detectOpenssl_iff scanned_splitFile opensslScan_splitFile]
    rfl
  · rw [detectOpenssl_iff scanned_splitFile opensslScan_splitFile, find_splitFile]
    intro same
    have texts : str "openssl 3.0.1" = lower splitVersion := Except.ok.inj same
    revert texts
    decide

end ECapture.Probe
