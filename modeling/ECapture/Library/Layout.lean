import ECapture.Library.Reader

/-!
# Fixed layouts

`Reads n P w r` says that the reader `r` takes exactly the `n` bytes that the writer `w` makes,
for the values of `P`: what was written is read back, every `n` bytes are the writing of some
value, and fewer bytes are an error. A record is read field by field: `Reads.bind` adds a field,
whose value `P` then fixes, and `Reads.pure` closes the record.
-/

namespace ECapture.Library

structure Reads {ε α : Type} (n : Nat) (P : α → Prop) (w : α → Bytes) (r : Reader ε α) : Prop where
  back : ∀ a, P a → ∀ rest, r (w a ++ rest) = .ok (a, rest)
  total : ∀ buf : Bytes, n ≤ buf.length → ∃ a rest, P a ∧ buf = w a ++ rest
  takes : Takes n r

namespace Reads

variable {ε δ α β : Type} {m n : Nat} {P : α → Prop} {w : α → Bytes} {r : Reader ε α}

/-! ## Fields -/

theorem readFull (n : Nat) :
    Reads n (fun _ => True) Vector.toList (Library.readFull n) where
  back v _ rest := readFull_append v rest
  total buf h := by
    refine ⟨⟨(buf.take n).toArray, size_take h⟩, buf.drop n, trivial, ?_⟩
    simp [Vector.toList]
  takes := .readFull n

/-- Another representation of the value. -/
theorem map {f : α → β} {g : β → α} (fg : ∀ b, f (g b) = b) (gf : ∀ a, g (f a) = a)
    (h : Reads n (fun _ => True) w r) :
    Reads n (fun _ => True) (fun b => w (g b)) (f <$> r) where
  back b _ rest := by rw [Reader.map_ok (h.back (g b) trivial rest), fg]
  total buf len := by
    obtain ⟨a, rest, -, eq⟩ := h.total buf len
    exact ⟨f a, rest, trivial, by rw [gf, eq]⟩
  takes := h.takes.map f

/-- A little-endian number; `ofNat` and `toNat` are those of its type. -/
theorem number {ofNat : Nat → β} {toNat : β → Nat} (back : ∀ b, ofNat (toNat b) = b)
    (lt : ∀ b, toNat b < 256 ^ n) (value : ∀ v < 256 ^ n, toNat (ofNat v) = v) :
    Reads n (fun _ => True) (fun b => leBytes n (toNat b))
      ((fun v => ofNat (leNat v.toList)) <$> Library.readFull n) where
  back b _ rest := by
    obtain ⟨field, read, eq⟩ := readFull_leBytes n (toNat b) rest
    rw [Reader.map_ok read, eq, Nat.mod_eq_of_lt (lt b), back]
  total buf len := by
    have size : (buf.take n).length = n := by simp [len]
    have bound := leNat_lt (buf.take n)
    rw [size] at bound
    refine ⟨ofNat (leNat (buf.take n)), buf.drop n, trivial, ?_⟩
    have bytes := leBytes_leNat (buf.take n)
    rw [size] at bytes
    rw [value _ bound, bytes, List.take_append_drop]
  takes := (Takes.readFull n).map _

theorem readU32 :
    Reads 4 (fun _ => True) (fun v : UInt32 => leBytes 4 v.toNat) Library.readU32 :=
  number (fun _ => UInt32.ofNat_toNat) (fun v => v.toNat_lt)
    fun v lt => by simpa using Nat.mod_eq_of_lt lt

theorem readU64 :
    Reads 8 (fun _ => True) (fun v : UInt64 => leBytes 8 v.toNat) Library.readU64 :=
  number (fun _ => UInt64.ofNat_toNat) (fun v => v.toNat_lt)
    fun v lt => by simpa using Nat.mod_eq_of_lt lt

theorem readI32 :
    Reads 4 (fun _ => True) (fun v : Int32 => leBytes 4 v.toUInt32.toNat) Library.readI32 :=
  readU32.map (fun _ => by simp) (fun _ => by simp)

theorem readI64 :
    Reads 8 (fun _ => True) (fun v : Int64 => leBytes 8 v.toUInt64.toNat) Library.readI64 :=
  readU64.map (fun _ => by simp) (fun _ => by simp)

theorem mapError (f : ε → δ) (h : Reads n P w r) : Reads n P w (r.mapError f) where
  back a ha rest := Reader.mapError_ok (h.back a ha rest)
  total := h.total
  takes := h.takes.mapError f

/-! ## Records -/

/-- The record is complete: its fields are those that were read. -/
theorem pure {a : α} (only : ∀ b, P b ↔ b = a) :
    Reads 0 P (fun _ => []) (Pure.pure a : Reader ε α) where
  back b hb rest := by
    rw [(only b).mp hb]
    rfl
  total buf _ := ⟨a, buf, (only a).mpr rfl, rfl⟩
  takes := .pure a

/-- One more field of a record, which `proj` takes out of it. -/
theorem bind {Q : β → Prop} {w' : β → Bytes} {f : α → Reader ε β}
    (h : Reads m (fun _ => True) w r) (proj : β → α)
    (hf : ∀ a, Reads n (fun b => Q b ∧ proj b = a) w' (f a)) :
    Reads (m + n) Q (fun b => w (proj b) ++ w' b) (r >>= f) where
  back b hb rest := by
    rw [List.append_assoc, Reader.bind_ok (h.back (proj b) trivial _)]
    exact (hf (proj b)).back b ⟨hb, rfl⟩ rest
  total buf len := by
    obtain ⟨a, tail, -, rfl⟩ := h.total buf (by omega)
    have size := (h.takes _ _ _ (h.back a trivial tail)).2
    have left : tail.length = (w a ++ tail).length - m := by
      conv_lhs => rw [size, List.length_drop]
    obtain ⟨b, rest, ⟨hb, rfl⟩, rfl⟩ := (hf a).total tail (by omega)
    exact ⟨b, rest, hb, by rw [List.append_assoc]⟩
  takes := h.takes.bind fun a => (hf a).takes

/-- The last field of a record. -/
theorem last {Q : β → Prop} {f : α → β} (h : Reads n (fun _ => True) w r) (proj : β → α)
    (only : ∀ a b, (Q b ∧ proj b = a) ↔ b = f a) :
    Reads n Q (fun b => w (proj b)) (r >>= fun a => Pure.pure (f a)) := by
  simpa using h.bind proj fun a => pure (only a)

/-! ## Whole records -/

theorem length_write (h : Reads n P w r) {a : α} (ha : P a) : (w a).length = n := by
  obtain ⟨enough, nothing⟩ := h.takes _ _ _ (h.back a ha [])
  have := congrArg List.length nothing
  simp at enough this
  omega

theorem run_write (h : Reads n P w r) {a : α} (ha : P a) (rest : Bytes) :
    r.run (w a ++ rest) = .ok a := by
  rw [Reader.run, h.back a ha rest]
  rfl

/-- A record that is long enough is the writing of what is read, and the bytes after it. -/
theorem exists_run (h : Reads n P w r) {data : Bytes} (len : n ≤ data.length) :
    ∃ a, P a ∧ r.run data = .ok a ∧ w a = data.take n := by
  obtain ⟨a, rest, ha, rfl⟩ := h.total data len
  exact ⟨a, ha, h.run_write ha rest, by rw [List.take_left' (h.length_write ha)]⟩

theorem run_ok_iff (h : Reads n P w r) (data : Bytes) :
    (∃ a, r.run data = .ok a) ↔ n ≤ data.length := by
  constructor
  · rintro ⟨a, read⟩
    by_contra short
    obtain ⟨e, failed⟩ := h.takes.run_error (show data.length < n by omega)
    rw [failed] at read
    cases read
  · intro len
    obtain ⟨a, -, read, -⟩ := h.exists_run len
    exact ⟨a, read⟩

/-- What follows a record does not matter. -/
theorem run_append (h : Reads n P w r) {data : Bytes} {a : α} (read : r.run data = .ok a)
    (rest : Bytes) : r.run (data ++ rest) = .ok a := by
  obtain ⟨b, tail, hb, rfl⟩ := h.total data ((h.run_ok_iff data).mp ⟨a, read⟩)
  rw [h.run_write hb] at read
  rw [List.append_assoc, h.run_write hb, read]

/-- Writing back what was read. -/
theorem write_of_run (h : Reads n P w r) {data : Bytes} {a : α} (read : r.run data = .ok a) :
    w a = data.take n := by
  obtain ⟨b, -, again, eq⟩ := h.exists_run ((h.run_ok_iff data).mp ⟨a, read⟩)
  rw [read] at again
  cases again
  exact eq

end Reads

/-! ## Windows -/

/-- The `n` bytes from offset `k` on. -/
def window (bs : Bytes) (k n : Nat) : Bytes := (bs.drop k).take n

@[simp] theorem window_skip {a : Bytes} {k : Nat} (h : a.length ≤ k) (b : Bytes) (n : Nat) :
    window (a ++ b) k n = window b (k - a.length) n := by
  rw [window, window, List.drop_append, List.drop_of_length_le h, List.nil_append]

@[simp] theorem window_front {a : Bytes} {n : Nat} (h : a.length = n) (b : Bytes) :
    window (a ++ b) 0 n = a := by
  rw [window, List.drop_zero, List.take_left' h]

theorem window_left {a : Bytes} {k n : Nat} (h : k + n ≤ a.length) (b : Bytes) :
    window (a ++ b) k n = window a k n := by
  have rest : n ≤ (a.drop k).length := by
    rw [List.length_drop]
    omega
  rw [window, window, List.drop_append_of_le_length (by omega), List.take_append_of_le_length rest]

theorem window_inside {bs : Bytes} {k n m : Nat} (h : k + n ≤ m) :
    window (bs.take m) k n = window bs k n := by
  rw [window, window, List.drop_take, List.take_take, Nat.min_eq_left (by omega)]

theorem drop_window (bs : Bytes) (k n i : Nat) :
    (window bs k n).drop i = window bs (k + i) (n - i) := by
  rw [window, window, List.drop_take, List.drop_drop]

theorem length_window {bs : Bytes} {k n : Nat} (h : k + n ≤ bs.length) :
    (window bs k n).length = n := by
  rw [window, List.length_take, List.length_drop]
  omega

theorem getElem?_window (bs : Bytes) (k n i : Nat) :
    (window bs k n)[i]? = if i < n then bs[k + i]? else none := by
  rw [window, List.getElem?_take, List.getElem?_drop]

/-- Windows are compared byte by byte. -/
theorem window_eq_iff {as bs : Bytes} {j k n : Nat} :
    window as j n = window bs k n ↔ ∀ i < n, as[j + i]? = bs[k + i]? := by
  simp only [List.ext_getElem?_iff, getElem?_window]
  constructor
  · intro same i inside
    simpa [inside] using same i
  · intro same i
    split
    · exact same i ‹_›
    · rfl

theorem window_eq_replicate_iff {bs : Bytes} {k n : Nat} {b : UInt8} :
    window bs k n = List.replicate n b ↔ ∀ i < n, bs[k + i]? = some b := by
  simp only [List.ext_getElem?_iff, getElem?_window, List.getElem?_replicate]
  constructor
  · intro same i inside
    simpa [inside] using same i
  · intro same i
    split
    · exact same i ‹_›
    · rfl

end ECapture.Library
