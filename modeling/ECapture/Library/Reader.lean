import ECapture.Library.Bytes

/-!
# Reading fixed-size fields

A `bytes.Buffer` is the list of its unread bytes. `readFull n` is a `binary.Read` of an
`n`-byte value: it needs all `n` bytes. Integers are little-endian. Reading back what was
written, whatever follows, is `readFull_append`.
-/

namespace ECapture.Library

inductive ReadError where
  | eof
  | unexpectedEOF
  deriving DecidableEq, Repr

def ReadError.message : ReadError → Bytes
  | .eof => str "EOF"
  | .unexpectedEOF => str "unexpected EOF"

abbrev Reader (ε : Type) := StateT Bytes (Except ε)

theorem size_take {n : Nat} {buf : Bytes} (h : n ≤ buf.length) : (buf.take n).toArray.size = n := by
  rw [List.size_toArray, List.length_take]
  omega

def readFull (n : Nat) : Reader ReadError (Vector UInt8 n) := fun buf =>
  if h : n ≤ buf.length then .ok (⟨(buf.take n).toArray, size_take h⟩, buf.drop n)
  else .error (if buf.length = 0 then .eof else .unexpectedEOF)

namespace Reader

variable {ε δ α β : Type}

def mapError (f : ε → δ) (r : Reader ε α) : Reader δ α := fun buf => (r buf).mapError f

/-- Run a reader over a whole record; what is left over is dropped. -/
def run (r : Reader ε α) (data : Bytes) : Except ε α := Prod.fst <$> r data

theorem bind_ok {r : Reader ε α} {f : α → Reader ε β} {buf rest : Bytes} {a : α}
    (h : r buf = .ok (a, rest)) : (r >>= f) buf = f a rest := by
  change (r buf).bind (fun p => f p.1 p.2) = _
  rw [h]
  rfl

theorem bind_error {r : Reader ε α} {f : α → Reader ε β} {buf : Bytes} {e : ε}
    (h : r buf = .error e) : (r >>= f) buf = .error e := by
  change (r buf).bind (fun p => f p.1 p.2) = _
  rw [h]
  rfl

theorem map_ok {r : Reader ε α} {f : α → β} {buf rest : Bytes} {a : α}
    (h : r buf = .ok (a, rest)) : (f <$> r) buf = .ok (f a, rest) := by
  change (r buf).bind (fun p => .ok (f p.1, p.2)) = _
  rw [h]
  rfl

theorem mapError_ok {r : Reader ε α} {f : ε → δ} {buf rest : Bytes} {a : α}
    (h : r buf = .ok (a, rest)) : r.mapError f buf = .ok (a, rest) := by
  rw [mapError, h]
  rfl

end Reader

/-- The number a little-endian byte string stands for. -/
def leNat : Bytes → Nat
  | [] => 0
  | b :: bs => b.toNat + 256 * leNat bs

/-- The `n` low bytes of a number, least significant first. -/
def leBytes : Nat → Nat → Bytes
  | 0, _ => []
  | n + 1, v => UInt8.ofNat v :: leBytes n (v / 256)

@[simp] theorem length_leBytes (n v : Nat) : (leBytes n v).length = n := by
  induction n generalizing v with
  | zero => rfl
  | succ n ih => simp [leBytes, ih]

theorem leNat_leBytes (n v : Nat) : leNat (leBytes n v) = v % 256 ^ n := by
  induction n generalizing v with
  | zero => simp [leBytes, leNat, Nat.mod_one]
  | succ n ih =>
    have low : (UInt8.ofNat v).toNat = v % 256 := by simp
    have split : v % (256 * 256 ^ n) = v % 256 + 256 * (v / 256 % 256 ^ n) := Nat.mod_mul
    rw [leBytes, leNat, ih, low, Nat.pow_succ', split]

theorem leNat_lt (bs : Bytes) : leNat bs < 256 ^ bs.length := by
  induction bs with
  | nil => simp [leNat]
  | cons b bs ih =>
    have := b.toNat_lt
    rw [leNat, List.length_cons, Nat.pow_succ']
    omega

theorem leNat_append (as bs : Bytes) : leNat (as ++ bs) = leNat as + 256 ^ as.length * leNat bs := by
  induction as with
  | nil => simp [leNat]
  | cons a as ih =>
    rw [List.cons_append, leNat, ih, leNat, List.length_cons, Nat.pow_succ', Nat.mul_add,
      Nat.mul_assoc, Nat.add_assoc]

theorem leNat_ne_zero {bs : Bytes} {b : UInt8} (mem : b ∈ bs) (ne : b ≠ 0) : leNat bs ≠ 0 := by
  induction bs with
  | nil => cases mem
  | cons a bs ih =>
    intro zero
    rw [leNat] at zero
    rcases List.mem_cons.mp mem with rfl | mem
    · exact ne (UInt8.toNat_inj.mp (by simp; omega))
    · exact ih mem (by omega)

def readU8 : Reader ReadError UInt8 := (fun v => v[0]) <$> readFull 1
def readU16 : Reader ReadError UInt16 := (fun v => UInt16.ofNat (leNat v.toList)) <$> readFull 2
def readU32 : Reader ReadError UInt32 := (fun v => UInt32.ofNat (leNat v.toList)) <$> readFull 4
def readU64 : Reader ReadError UInt64 := (fun v => UInt64.ofNat (leNat v.toList)) <$> readFull 8
def readI8 : Reader ReadError Int8 := UInt8.toInt8 <$> readU8
def readI32 : Reader ReadError Int32 := UInt32.toInt32 <$> readU32
def readI64 : Reader ReadError Int64 := UInt64.toInt64 <$> readU64

theorem readFull_of_le {n : Nat} {buf : Bytes} (h : n ≤ buf.length) :
    readFull n buf = .ok (⟨(buf.take n).toArray, size_take h⟩, buf.drop n) :=
  dif_pos h

/-- Reading at an offset. -/
theorem readFull_drop (data : Bytes) (k n : Nat) (h : k + n ≤ data.length) :
    ∃ v : Vector UInt8 n, readFull n (data.drop k) = .ok (v, data.drop (k + n)) ∧
      v.toList = (data.drop k).take n := by
  have len : n ≤ (data.drop k).length := by simp; omega
  refine ⟨⟨((data.drop k).take n).toArray, size_take len⟩, ?_, by simp [Vector.toList]⟩
  rw [readFull_of_le len, List.drop_drop]

theorem readU8_drop (data : Bytes) (k : Nat) (h : k < data.length) :
    readU8 (data.drop k) = .ok (data[k], data.drop (k + 1)) := by
  obtain ⟨v, read, value⟩ := readFull_drop data k 1 (by omega)
  have single : v.toList = [data[k]] := by rw [value, List.drop_eq_getElem_cons h]; rfl
  have first : v[0] = data[k] := by
    have : v.toList[0]? = some data[k] := by rw [single]; rfl
    simpa using this
  rw [readU8, Reader.map_ok read, first]

theorem readU64_drop (data : Bytes) (k : Nat) (h : k + 8 ≤ data.length) :
    readU64 (data.drop k) =
      .ok (UInt64.ofNat (leNat ((data.drop k).take 8)), data.drop (k + 8)) := by
  obtain ⟨v, read, value⟩ := readFull_drop data k 8 h
  rw [readU64, Reader.map_ok read, value]

theorem readU32_drop (data : Bytes) (k : Nat) (h : k + 4 ≤ data.length) :
    readU32 (data.drop k) =
      .ok (UInt32.ofNat (leNat ((data.drop k).take 4)), data.drop (k + 4)) := by
  obtain ⟨v, read, value⟩ := readFull_drop data k 4 h
  rw [readU32, Reader.map_ok read, value]

/-! ## How much a reader takes -/

/-- A reader that succeeds has taken `n` bytes. -/
def Takes {ε α : Type} (n : Nat) (r : Reader ε α) : Prop :=
  ∀ buf a rest, r buf = .ok (a, rest) → n ≤ buf.length ∧ rest = buf.drop n

namespace Takes

variable {ε δ α β : Type} {m n : Nat}

theorem pure (a : α) : Takes 0 (Pure.pure a : Reader ε α) := by
  rintro buf _ _ ⟨⟩
  exact ⟨Nat.zero_le _, rfl⟩

theorem readFull (n : Nat) : Takes n (Library.readFull n) := by
  intro buf a rest h
  unfold Library.readFull at h
  split at h
  case isTrue len =>
    cases h
    exact ⟨len, rfl⟩
  case isFalse => cases h

theorem map {r : Reader ε α} (f : α → β) (h : Takes n r) : Takes n (f <$> r) := by
  intro buf b rest eq
  cases read : r buf with
  | error e =>
    change (r buf).bind (fun p => .ok (f p.1, p.2)) = _ at eq
    rw [read] at eq
    cases eq
  | ok p =>
    rw [Reader.map_ok read] at eq
    cases eq
    exact h buf p.1 p.2 read

theorem mapError {r : Reader ε α} (f : ε → δ) (h : Takes n r) : Takes n (r.mapError f) := by
  intro buf a rest eq
  unfold Reader.mapError at eq
  cases read : r buf with
  | error e =>
    rw [read] at eq
    cases eq
  | ok p =>
    rw [read] at eq
    cases eq
    exact h buf _ _ read

theorem bind {r : Reader ε α} {f : α → Reader ε β} (hr : Takes m r) (hf : ∀ a, Takes n (f a)) :
    Takes (m + n) (r >>= f) := by
  intro buf b rest eq
  cases read : r buf with
  | error e =>
    rw [Reader.bind_error read] at eq
    cases eq
  | ok p =>
    obtain ⟨len, left⟩ := hr buf p.1 p.2 read
    rw [Reader.bind_ok read, left] at eq
    obtain ⟨len', left'⟩ := hf p.1 _ _ _ eq
    rw [List.length_drop] at len'
    exact ⟨by omega, by rw [left', List.drop_drop]⟩

/-- A record that is too short is an error. -/
theorem run_error {r : Reader ε α} {data : Bytes} (h : Takes n r) (short : data.length < n) :
    ∃ e, r.run data = .error e := by
  cases read : r data with
  | error e => exact ⟨e, by simp [Reader.run, read, Functor.map, Except.map]⟩
  | ok p =>
    have := (h data p.1 p.2 read).1
    omega

end Takes

/-- What a reader returns satisfies `Q`. -/
def Ensures {ε α : Type} (Q : α → Prop) (r : Reader ε α) : Prop :=
  ∀ buf a rest, r buf = .ok (a, rest) → Q a

namespace Ensures

variable {ε α β : Type} {R : α → Prop} {Q : β → Prop}

theorem pure {b : β} (h : Q b) : Ensures Q (Pure.pure b : Reader ε β) := by
  rintro buf _ _ ⟨⟩
  exact h

theorem bind {r : Reader ε α} {f : α → Reader ε β} (hr : Ensures R r)
    (hf : ∀ a, R a → Ensures Q (f a)) : Ensures Q (r >>= f) := by
  intro buf b rest eq
  cases read : r buf with
  | error e =>
    rw [Reader.bind_error read] at eq
    cases eq
  | ok p =>
    rw [Reader.bind_ok read] at eq
    exact hf p.1 (hr buf _ _ read) _ _ _ eq

/-- The first read does not matter for `Q`. -/
theorem skip {r : Reader ε α} {f : α → Reader ε β} (hf : ∀ a, Ensures Q (f a)) :
    Ensures Q (r >>= f) :=
  bind (R := fun _ => True) (fun _ _ _ _ => trivial) fun a _ => hf a

theorem run_ok {r : Reader ε β} {data : Bytes} {b : β} (h : Ensures Q r)
    (eq : r.run data = .ok b) : Q b := by
  cases read : r data with
  | error e => simp [Reader.run, read, Functor.map, Except.map] at eq
  | ok p =>
    simp only [Reader.run, read, Functor.map, Except.map, Except.ok.injEq] at eq
    exact eq ▸ h data _ _ read

end Ensures

/-- Reading back a value that stands at the front. -/
theorem readFull_append {n : Nat} (v : Vector UInt8 n) (rest : Bytes) :
    readFull n (v.toList ++ rest) = .ok (v, rest) := by
  rw [readFull_of_le (by simp)]
  simp [Vector.toList]

/-- Reading back the low bytes of a number. -/
theorem readFull_leBytes (n v : Nat) (rest : Bytes) :
    ∃ field : Vector UInt8 n, readFull n (leBytes n v ++ rest) = .ok (field, rest) ∧
      leNat field.toList = v % 256 ^ n := by
  let field : Vector UInt8 n := ⟨(leBytes n v).toArray, by simp⟩
  have bytes : field.toList = leBytes n v := by simp [field, Vector.toList]
  have read := readFull_append field rest
  rw [bytes] at read
  refine ⟨field, read, ?_⟩
  rw [bytes, leNat_leBytes]

theorem readU8_leBytes (v : UInt8) (rest : Bytes) :
    readU8 (leBytes 1 v.toNat ++ rest) = .ok (v, rest) := by
  have read := readFull_append (n := 1) #v[v] rest
  have bytes : leBytes 1 v.toNat = (#v[v] : Vector UInt8 1).toList := by simp [leBytes]
  rw [readU8, bytes, Reader.map_ok read]
  rfl

theorem readU16_leBytes (v : UInt16) (rest : Bytes) :
    readU16 (leBytes 2 v.toNat ++ rest) = .ok (v, rest) := by
  obtain ⟨field, read, value⟩ := readFull_leBytes 2 v.toNat rest
  have bound := v.toNat_lt
  rw [readU16, Reader.map_ok read, value, Nat.mod_eq_of_lt (by omega), UInt16.ofNat_toNat]

theorem readU32_leBytes (v : UInt32) (rest : Bytes) :
    readU32 (leBytes 4 v.toNat ++ rest) = .ok (v, rest) := by
  obtain ⟨field, read, value⟩ := readFull_leBytes 4 v.toNat rest
  have bound := v.toNat_lt
  rw [readU32, Reader.map_ok read, value, Nat.mod_eq_of_lt (by omega), UInt32.ofNat_toNat]

theorem readU64_leBytes (v : UInt64) (rest : Bytes) :
    readU64 (leBytes 8 v.toNat ++ rest) = .ok (v, rest) := by
  obtain ⟨field, read, value⟩ := readFull_leBytes 8 v.toNat rest
  have bound := v.toNat_lt
  rw [readU64, Reader.map_ok read, value, Nat.mod_eq_of_lt (by omega), UInt64.ofNat_toNat]

theorem readI32_leBytes (v : Int32) (rest : Bytes) :
    readI32 (leBytes 4 v.toUInt32.toNat ++ rest) = .ok (v, rest) := by
  rw [readI32, Reader.map_ok (readU32_leBytes _ _)]
  simp

/-- Two adjacent fields are one longer field. -/
theorem leBytes_add (m n v : Nat) :
    leBytes (m + n) v = leBytes m v ++ leBytes n (v / 256 ^ m) := by
  induction m generalizing v with
  | zero => simp [leBytes]
  | succ m ih =>
    rw [Nat.succ_add, leBytes, ih, leBytes, Nat.div_div_eq_div_mul, Nat.pow_succ', List.cons_append]

/-- Writing back what a field held. -/
theorem leBytes_leNat (bs : Bytes) : leBytes bs.length (leNat bs) = bs := by
  induction bs with
  | nil => rfl
  | cons b bs ih =>
    have bound := b.toNat_lt
    have low : UInt8.ofNat (b.toNat + 256 * leNat bs) = b := by
      apply UInt8.toNat_inj.mp
      rw [UInt8.toNat_ofNat']
      omega
    have rest : (b.toNat + 256 * leNat bs) / 256 = leNat bs := by omega
    rw [List.length_cons, leNat, leBytes, low, rest, ih]

theorem leBytes_inj {n a b : Nat} (ha : a < 256 ^ n) (hb : b < 256 ^ n) :
    leBytes n a = leBytes n b ↔ a = b := by
  refine ⟨fun h => ?_, fun h => h ▸ rfl⟩
  have values := congrArg leNat h
  rwa [leNat_leBytes, leNat_leBytes, Nat.mod_eq_of_lt ha, Nat.mod_eq_of_lt hb] at values

theorem leBytes_u32_inj {a b : UInt32} : leBytes 4 a.toNat = leBytes 4 b.toNat ↔ a = b :=
  (leBytes_inj a.toNat_lt b.toNat_lt).trans UInt32.toNat_inj

theorem leBytes_u64_inj {a b : UInt64} : leBytes 8 a.toNat = leBytes 8 b.toNat ↔ a = b :=
  (leBytes_inj a.toNat_lt b.toNat_lt).trans UInt64.toNat_inj

/-- A field holds the number `v` exactly if its bytes are those of `v`. -/
theorem ofNat_leNat_eq_iff {bs : Bytes} (size : bs.length = 4) (v : UInt32) :
    UInt32.ofNat (leNat bs) = v ↔ bs = leBytes 4 v.toNat := by
  have bound := leNat_lt bs
  rw [size] at bound
  constructor
  · rintro rfl
    have bytes := leBytes_leNat bs
    rw [UInt32.toNat_ofNat', Nat.mod_eq_of_lt (by omega), ← size, bytes]
  · rintro rfl
    have := v.toNat_lt
    rw [leNat_leBytes, Nat.mod_eq_of_lt (by omega), UInt32.ofNat_toNat]

end ECapture.Library
