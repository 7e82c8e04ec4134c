import ECapture.Library.PrefixSearch
import ECapture.Probe.Detect
import Mathlib.Data.List.Infix

/-!
# Choosing bytecode for an OpenSSL version

`isVersionLessOrEqual`, the table `sslVersionBpfMap` that `init` builds
(`internal/probe/openssl/libs.go`), and `downgradeOpensslVersion` of `config.go`, which looks for
the bytecode of a version that the table does not have.
-/

namespace ECapture.Probe
open Library

/-! ## Comparing versions -/

/-- `strconv.Atoi` of digits, without its error: a number beyond the range gives the greatest one. -/
def atoi (digits : Bytes) : Nat := min (natOf digits) (2 ^ 63 - 1)

/-- The number at the front of a part, and the rest. -/
def extractVersionPart (s : Bytes) : Nat × Bytes :=
  let numStr := s.takeWhile isDigit
  (if numStr = [] then 0 else atoi numStr, s.drop numStr.length)

/-- The loop over the parts, as a list of pairs. -/
def partsLessOrEqual : List (Bytes × Bytes) → Bool
  | [] => true
  | (p1Str, p2Str) :: rest =>
    let (num1, suffix1) := extractVersionPart p1Str
    let (num2, suffix2) := extractVersionPart p2Str
    if num1 < num2 then true
    else if num2 < num1 then false
    else if suffix1 < suffix2 then true
    else if suffix2 < suffix1 then false
    else partsLessOrEqual rest

def openssl_ : Bytes := str "openssl "

/-- `strings.TrimPrefix(v, "openssl ")`, split at the dots. -/
def versionParts (v : Bytes) : List Bytes :=
  (if openssl_.isPrefixOf v then v.drop openssl_.length else v).splitOn 46

def isVersionLessOrEqual (v1 v2 : Bytes) : Bool :=
  let parts1 := versionParts v1
  let parts2 := versionParts v2
  let maxLen := max parts1.length parts2.length
  partsLessOrEqual ((List.range maxLen).map fun i =>
    (parts1.getD i (str "0"), parts2.getD i (str "0")))

/-! ## The table -/

/-- A map from versions to bytecode, as its assignments, the newest first. -/
abbrev BpfMap := List (Bytes × Bytes)

/-- An assignment `m[key] = code`. -/
def BpfMap.put (m : BpfMap) (key code : Bytes) : BpfMap := (key, code) :: m

/-- A loop of assignments, for keys that begin alike. -/
def BpfMap.putEach (m : BpfMap) (front : String) (ends : List Bytes) (code : String) : BpfMap :=
  ends.foldl (fun m last => m.put (str front ++ last) (str code)) m

/-- `for ch := first; ch <= last; ch++` over letters. -/
def letters (first last : Char) : List Bytes :=
  (List.range' first.toNat (last.toNat + 1 - first.toNat)).map fun ch => [UInt8.ofNat ch]

/-- `for ch := first; ch <= last; ch++` over numbers, printed with `%d`. -/
def numbers (first last : Nat) : List Bytes := (List.range' first (last + 1 - first)).map dec

def linuxDefaultFilename111 : Bytes := str "linux_default_1_1_1"
def linuxDefaultFilename30 : Bytes := str "linux_default_3_0"

def defaultBpfMap : BpfMap := [
  (str "linux_default_1_0_2", str "openssl_1_0_2a_kern.o"),
  (str "linux_default_1_1_0", str "openssl_1_1_0a_kern.o"),
  (linuxDefaultFilename111, str "openssl_1_1_1j_kern.o"),
  (linuxDefaultFilename30, str "openssl_3_0_0_kern.o"),
  (str "linux_default_3_2", str "openssl_3_2_0_kern.o"),
  (str "boringssl 1.1.1", str "boringssl_a_13_kern.o"),
  (str "boringssl_a_13", str "boringssl_a_13_kern.o"),
  (str "boringssl_a_14", str "boringssl_a_14_kern.o"),
  (str "boringssl_a_15", str "boringssl_a_15_kern.o"),
  (str "boringssl_a_16", str "boringssl_a_16_kern.o"),
  (str "android_default", str "boringssl_a_13_kern.o"),
  (str "boringssl na", str "boringssl_na_kern.o")]

def sslVersionBpfMap : BpfMap :=
  defaultBpfMap
  |>.put (str "openssl 1.1.1a") (str "openssl_1_1_1a_kern.o")
  |>.put (str "openssl 1.1.1b") (str "openssl_1_1_1b_kern.o")
  |>.put (str "openssl 1.1.1c") (str "openssl_1_1_1b_kern.o")
  |>.putEach "openssl 1.1.1" (letters 'd' 'i') "openssl_1_1_1d_kern.o"
  |>.putEach "openssl 1.1.1" (letters 'j' 'w') "openssl_1_1_1j_kern.o"
  |>.putEach "openssl 3.0." (numbers 0 21) "openssl_3_0_0_kern.o"
  |>.putEach "openssl 3.0." (numbers 12 12) "openssl_3_0_12_kern.o"
  |>.putEach "openssl 3.1." (numbers 0 8) "openssl_3_1_0_kern.o"
  |>.putEach "openssl 3.2." (numbers 0 2) "openssl_3_2_0_kern.o"
  |>.putEach "openssl 3.2." (numbers 3 3) "openssl_3_2_3_kern.o"
  |>.putEach "openssl 3.2." (numbers 4 6) "openssl_3_2_4_kern.o"
  |>.putEach "openssl 3.3." (numbers 0 1) "openssl_3_3_0_kern.o"
  |>.putEach "openssl 3.3." (numbers 2 2) "openssl_3_3_2_kern.o"
  |>.putEach "openssl 3.3." (numbers 3 7) "openssl_3_3_3_kern.o"
  |>.putEach "openssl 3.4." (numbers 0 0) "openssl_3_4_0_kern.o"
  |>.putEach "openssl 3.4." (numbers 1 6) "openssl_3_4_1_kern.o"
  |>.putEach "openssl 3.5." (numbers 0 7) "openssl_3_5_0_kern.o"
  |>.putEach "openssl 3.6." (numbers 0 2) "openssl_3_5_0_kern.o"
  |>.putEach "openssl 4.0." (numbers 0 1) "openssl_3_5_0_kern.o"
  |>.putEach "openssl 1.1.0" (letters 'a' 'l') "openssl_1_1_0a_kern.o"
  |>.putEach "openssl 1.0.2" (letters 'a' 'u') "openssl_1_0_2a_kern.o"

def BpfMap.keys (m : BpfMap) : List Bytes := m.map Prod.fst

/-- `m[key]`, the empty string for a key that is not there. -/
def BpfMap.get (m : BpfMap) (key : Bytes) : Bytes := (m.lookup key).getD []

/-! ## Downgrading -/

/-- `sort.Strings` compares byte by byte. -/
def stringLe (a b : Bytes) : Bool := decide (a ≤ b)

/-- What `downgradeOpensslVersion` returns, and the field of the configuration it may set. -/
structure Downgrade where
  bpfFile : Bytes
  found : Bool
  sslVersion : Bytes

/-- `order i` is the order in which the loop over the map goes in the round for `ver[:i]`. -/
def downgradeOpensslVersion (order : Nat → List Bytes) (sslVersion ver soPath : Bytes) : Downgrade :=
  match search stringLe order (fun libKey => isVersionLessOrEqual libKey ver) ver
      (ver.length - 1) with
  | some libKey => { bpfFile := sslVersionBpfMap.get libKey, found := true, sslVersion }
  | none =>
    if str "libssl.so.3" <:+: soPath then
      { bpfFile := sslVersionBpfMap.get linuxDefaultFilename30, found := false,
        sslVersion := linuxDefaultFilename30 }
    else
      { bpfFile := sslVersionBpfMap.get linuxDefaultFilename111, found := false,
        sslVersion := linuxDefaultFilename111 }

/-- The orders in which Go may go through the map: every key comes once. -/
def Ranges (order : Nat → List Bytes) : Prop :=
  ∀ i, (order i).Nodup ∧ ∀ key, key ∈ order i ↔ key ∈ sslVersionBpfMap.keys

end ECapture.Probe
